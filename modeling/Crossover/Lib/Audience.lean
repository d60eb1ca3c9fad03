import Crossover.Lib.Listener

/-!
# Audience — services that differ in whom they tell

Two services may keep the same member table and tell different members about it: one reports the
others to everybody who has joined, one only to those who are present; one announces members of its
own as well.  `Audience.Serves` is what a step has to bring to each member, `Audience.Knows` what a
member then holds: in the end every present member holds the other present members, each once, and
besides them at most what the service hosts itself.
-/

namespace Crossover
namespace Lobby

universe u v w

variable {α : Type u} {κ : Type v} {ι : Type w}

/-- The id a note assigns. -/
def Note.assigned : Note κ ι → Option κ
  | .assign id => some id
  | _ => none

section Heard

variable [DecidableEq α]

/-- The notes to an address that may change what it knows. -/
def heard (mail : List (α × Note κ ι)) (a : α) : List (Note κ ι) :=
  (inbox mail a).filterMap Note.spoken

@[simp] theorem heard_nil (a : α) : heard ([] : List (α × Note κ ι)) a = [] := rfl

@[simp] theorem heard_append (mail more : List (α × Note κ ι)) (a : α) :
    heard (mail ++ more) a = heard mail a ++ heard more a := by
  simp [heard]

end Heard

/-! ## The table -/

section Table

variable [DecidableEq κ]

/-- What an act makes of the table. -/
def apply (T : List (Member α κ ι)) : Act α κ ι → List (Member α κ ι)
  | .idle => T
  | .join a id info => T ++ [{ addr := a, id := id, present := false, info := info }]
  | .announce id info => T.map fun m => if m.id = id then m.announce info else m
  | .relay _ => T
  | .leave id => without T id
  | .close => []

theorem map_announce {T : List (Member α κ ι)} {β : Type*} {f : Member α κ ι → β}
    (hf : ∀ (m : Member α κ ι) info, f (m.announce info) = f m) (id : κ) (info : ι) :
    (apply T (.announce id info)).map f = T.map f := by
  rw [apply, List.map_map]
  apply List.map_congr_left
  intro m _
  simp only [Function.comp_apply]
  split
  · exact hf m info
  · rfl

theorem mem_announce {T : List (Member α κ ι)} {id : κ} {info : ι} {q : Member α κ ι} :
    q ∈ apply T (.announce id info) ↔
      (q ∈ T ∧ q.id ≠ id) ∨ ∃ m ∈ T, m.id = id ∧ q = m.announce info := by
  constructor
  · intro hq
    rcases List.mem_map.1 hq with ⟨m, hm, rfl⟩
    split
    · rename_i hid
      exact Or.inr ⟨m, hm, hid, rfl⟩
    · rename_i hid
      exact Or.inl ⟨hm, hid⟩
  · rintro (⟨hq, hid⟩ | ⟨m, hm, hid, rfl⟩)
    · exact List.mem_map.2 ⟨q, hq, by rw [if_neg hid]⟩
    · exact List.mem_map.2 ⟨m, hm, by rw [if_pos hid]⟩

/-- A member behind an act was one before, or it has just joined. -/
theorem mem_apply {T : List (Member α κ ι)} {act : Act α κ ι} {m : Member α κ ι}
    (h : m ∈ apply T act) :
    (∃ q ∈ T, q.addr = m.addr ∧ q.id = m.id) ∨ ∃ info, act = .join m.addr m.id info := by
  cases act with
  | idle => exact Or.inl ⟨m, h, rfl, rfl⟩
  | relay id => exact Or.inl ⟨m, h, rfl, rfl⟩
  | join a id info =>
    rcases List.mem_append.1 h with hold | hnew
    · exact Or.inl ⟨m, hold, rfl, rfl⟩
    · obtain rfl := List.mem_singleton.1 hnew
      exact Or.inr ⟨info, rfl⟩
  | announce id info =>
    rcases mem_announce.1 h with ⟨hold, _⟩ | ⟨q, hq, _, rfl⟩
    · exact Or.inl ⟨m, hold, rfl, rfl⟩
    · exact Or.inl ⟨q, hq, rfl, rfl⟩
  | leave id => exact Or.inl ⟨m, (mem_without.1 h).1, rfl, rfl⟩
  | close => cases h

/-- A step leaves behind what its act makes of the table. -/
theorem Step.eq_apply {T T' : List (Member α κ ι)} {act : Act α κ ι} {out : List (α × Note κ ι)}
    (hT : WellFormed T) (h : Step T act out T') : T' = apply T act := by
  cases h with
  | announce before after m info =>
    have hother : ∀ q ∈ before ++ after, q.id ≠ m.id := by
      have hids := hT.ids
      rw [List.map_append, List.map_cons, List.nodup_middle, List.nodup_cons] at hids
      intro q hq heq
      apply hids.1
      rw [← List.map_append, ← heq]
      exact List.mem_map_of_mem hq
    have hkeep : ∀ l ⊆ before ++ after,
        (l.map fun q => if q.id = m.id then q.announce info else q) = l := by
      intro l hl
      have hsame : ∀ q ∈ l, (if q.id = m.id then q.announce info else q) = id q :=
        fun q hq => if_neg (hother q (hl hq))
      rw [List.map_congr_left hsame, List.map_id]
    rw [apply, List.map_append, List.map_cons, hkeep before (List.subset_append_left _ _),
      hkeep after (List.subset_append_right _ _), if_pos rfl]
  | _ => rfl

theorem WellFormed.announce {T : List (Member α κ ι)} (hT : WellFormed T) (id : κ) (info : ι) :
    WellFormed (apply T (.announce id info)) where
  addrs := by
    rw [map_announce (fun _ _ => rfl)]
    exact hT.addrs
  ids := by
    rw [map_announce (fun _ _ => rfl)]
    exact hT.ids

/-- The entries of the present members once `m` has announced itself. -/
theorem WellFormed.present_announce {T : List (Member α κ ι)} (hT : WellFormed T)
    {m : Member α κ ι} (hm : m ∈ T) (habsent : m.present = false) (info : ι) (e : κ × ι) :
    (∃ q ∈ apply T (.announce m.id info), q.present = true ∧ q.entry = e) ↔
      (∃ q ∈ T, q.present = true ∧ q.entry = e) ∨ e = (m.id, info) := by
  constructor
  · rintro ⟨q, hq, hp, rfl⟩
    rcases mem_announce.1 hq with ⟨hold, _⟩ | ⟨n, hn, hid, rfl⟩
    · exact Or.inl ⟨q, hold, hp, rfl⟩
    · rw [hT.eq_of_id hn hm hid]
      exact Or.inr rfl
  · rintro (⟨q, hq, hp, rfl⟩ | rfl)
    · refine ⟨q, mem_announce.2 (Or.inl ⟨hq, ?_⟩), hp, rfl⟩
      intro hid
      rw [hT.eq_of_id hq hm hid, habsent] at hp
      cases hp
    · exact ⟨m.announce info, mem_announce.2 (Or.inr ⟨m, hm, rfl, rfl⟩), rfl, rfl⟩

/-- The entries of the present members once `id` has left. -/
theorem present_without (T : List (Member α κ ι)) (id : κ) (e : κ × ι) :
    (∃ q ∈ without T id, q.present = true ∧ q.entry = e) ↔
      (∃ q ∈ T, q.present = true ∧ q.entry = e) ∧ e.1 ≠ id := by
  constructor
  · rintro ⟨q, hq, hp, rfl⟩
    exact ⟨⟨q, (mem_without.1 hq).1, hp, rfl⟩, (mem_without.1 hq).2⟩
  · rintro ⟨⟨q, hq, hp, rfl⟩, hne⟩
    exact ⟨q, mem_without.2 ⟨hq, hne⟩, hp, rfl⟩

/-- Ids are not shared, so the first member with an id is the only one. -/
theorem WellFormed.eraseP_id {T : List (Member α κ ι)} (hT : WellFormed T) (id : κ) :
    (T.eraseP fun m => decide (m.id = id)) = without T id := by
  have hids := hT.ids
  clear hT
  induction T with
  | nil => rfl
  | cons m rest ih =>
    rw [List.map_cons, List.nodup_cons] at hids
    by_cases hid : m.id = id
    · have hrest : without rest id = rest := by
        apply List.filter_eq_self.2
        intro q hq
        have hne : q.id ≠ id := by
          intro heq
          exact hids.1 (hid.trans heq.symm ▸ List.mem_map_of_mem hq)
        simp [hne]
      have hfirst : without (m :: rest) id = without rest id := by simp [without, hid]
      rw [List.eraseP_cons_of_pos (by simp [hid]), hfirst, hrest]
    · have hfirst : without (m :: rest) id = m :: without rest id := by simp [without, hid]
      rw [List.eraseP_cons_of_neg (by simp [hid]), hfirst, ih hids.2]

/-- The entries of the present members other than `id`. -/
def peerEntries (T : List (Member α κ ι)) (id : κ) : List (κ × ι) :=
  (peers T id).map Member.entry

end Table

/-! ## Whom a service tells -/

/-- The members that are told about the others, which include the present ones, and the ids of the
service's own members. -/
structure Audience (α : Type u) (κ : Type v) (ι : Type w) where
  hears : Member α κ ι → Bool
  hosted : κ → Prop
  hears_present : ∀ m, m.present = true → hears m = true

namespace Audience

variable (A : Audience α κ ι)

/-- What a member holds: itself never, everybody else once, only present members and the service's
own, all of the present ones if it is present, nobody if it is not told. -/
structure Knows (T : List (Member α κ ι)) (m : Member α κ ι) (l : Listener κ ι) : Prop where
  own : l.own = some m.id
  distinct : l.Distinct
  sound : ∀ e ∈ l.table, A.hosted e.1 ∨ ∃ q ∈ T, q.present = true ∧ q.entry = e
  complete : m.present = true → ∀ q ∈ T, q.present = true → q.id ≠ m.id → q.entry ∈ l.table
  deaf : A.hears m = false → l.table = []

namespace Knows

variable {A} {T T' : List (Member α κ ι)} {m : Member α κ ι} {l : Listener κ ι}

theorem mem_ids {e : κ × ι} (he : e ∈ l.table) : e.1 ∈ l.ids :=
  List.mem_map_of_mem he

/-- Nothing has been said, and the present members are as before. -/
theorem same (h : A.Knows T m l) (hsub : ∀ q ∈ T, q.present = true → q ∈ T')
    (hback : ∀ q ∈ T', q.present = true → q ∈ T) : A.Knows T' m l := by
  refine ⟨h.own, h.distinct, ?_, ?_, h.deaf⟩
  · intro e he
    rcases h.sound e he with hosted | ⟨q, hq, hp, heq⟩
    · exact Or.inl hosted
    · exact Or.inr ⟨q, hsub q hq hp, hp, heq⟩
  · intro hm q hq hp hne
    exact h.complete hm q (hback q hq hp) hp hne

/-- A member that is not told learns nothing, and nothing that it holds gets out of date. -/
theorem of_deaf (h : A.Knows T m l) (hdeaf : A.hears m = false) (T' : List (Member α κ ι)) :
    A.Knows T' m l := by
  refine ⟨h.own, h.distinct, ?_, ?_, h.deaf⟩
  · intro e he
    rw [h.deaf hdeaf] at he
    cases he
  · intro hm
    have hhears := A.hears_present m hm
    rw [hdeaf] at hhears
    cases hhears

variable [DecidableEq κ]

/-- The announcement of somebody else. -/
theorem create (h : A.Knows T m l) (hT : WellFormed T) (hforeign : ∀ q ∈ T, ¬ A.hosted q.id)
    {n : Member α κ ι} (hn : n ∈ T) (habsent : n.present = false) (hne : m.id ≠ n.id)
    (info : ι) (hhears : A.hears m = true) :
    A.Knows (apply T (.announce n.id info)) m (l.hear (.create n.id info)) := by
  have htable : (l.hear (.create n.id info)).table = l.table ++ [(n.id, info)] := rfl
  -- The table holds hosted ids and present members; the newcomer is neither yet.
  have hfree : n.id ∉ l.ids := by
    intro hmem
    rcases List.mem_map.1 hmem with ⟨e, he, heq⟩
    rcases h.sound e he with hosted | ⟨q, hq, hp, rfl⟩
    · exact hforeign n hn (heq ▸ hosted)
    · obtain rfl := hT.eq_of_id hq hn heq
      rw [habsent] at hp
      cases hp
  have hown : l.own ≠ some n.id := by
    rw [h.own]
    exact fun heq => hne (Option.some.inj heq)
  refine ⟨h.own, h.distinct.create info hown hfree, ?_, ?_, ?_⟩
  · intro e he
    rw [htable] at he
    rcases List.mem_append.1 he with hold | hnew
    · rcases h.sound e hold with hosted | ⟨q, hq, hp, heq⟩
      · exact Or.inl hosted
      · refine Or.inr ⟨q, mem_announce.2 (Or.inl ⟨hq, ?_⟩), hp, heq⟩
        intro hid
        obtain rfl := hT.eq_of_id hq hn hid
        rw [habsent] at hp
        cases hp
    · rw [List.mem_singleton.1 hnew]
      exact Or.inr ⟨n.announce info, mem_announce.2 (Or.inr ⟨n, hn, rfl, rfl⟩), rfl, rfl⟩
  · intro hm q hq hp hqm
    rw [htable]
    rcases mem_announce.1 hq with ⟨hold, _⟩ | ⟨n', hn', hid, rfl⟩
    · exact List.mem_append_left _ (h.complete hm q hold hp hqm)
    · obtain rfl := hT.eq_of_id hn' hn hid
      exact List.mem_append_right _ (List.mem_singleton_self _)
  · intro hdeaf
    rw [hhears] at hdeaf
    cases hdeaf

/-- The roster, behind the member's own announcement. -/
theorem roster (h : A.Knows T m l) (hT : WellFormed T) (hforeign : ∀ q ∈ T, ¬ A.hosted q.id)
    (hm : m ∈ T) (habsent : m.present = false) (info : ι) {entries : List (κ × ι)}
    (hsound : ∀ e ∈ entries, A.hosted e.1 ∨
      ∃ q ∈ apply T (.announce m.id info), q.present = true ∧ q.entry = e)
    (hcomplete : ∀ q ∈ T, q.present = true → q.id ≠ m.id → q.entry ∈ entries) :
    A.Knows (apply T (.announce m.id info)) (m.announce info)
      (entries.foldl Listener.addNew l) := by
  have hT' := hT.announce m.id info
  have hsound' : ∀ e ∈ (entries.foldl Listener.addNew l).table, A.hosted e.1 ∨
      ∃ q ∈ apply T (.announce m.id info), q.present = true ∧ q.entry = e := by
    intro e he
    rcases Listener.table_roster he with hold | hnew
    · rcases h.sound e hold with hosted | ⟨q, hq, hp, heq⟩
      · exact Or.inl hosted
      · refine Or.inr ⟨q, mem_announce.2 (Or.inl ⟨hq, ?_⟩), hp, heq⟩
        intro hid
        obtain rfl := hT.eq_of_id hq hm hid
        rw [habsent] at hp
        cases hp
    · exact hsound e hnew
  refine ⟨(Listener.foldl_addNew_own l entries).trans h.own, h.distinct.roster entries, hsound',
    ?_, ?_⟩
  · intro _ q hq hp hne
    have hold : q ∈ T := by
      rcases mem_announce.1 hq with ⟨hold, _⟩ | ⟨n, hn, hid, rfl⟩
      · exact hold
      · exact absurd hid hne
    -- The id is held now; by soundness nobody else's entry is held under it.
    have hown : l.own ≠ some q.id := by
      rw [h.own]
      exact fun heq => hne (Option.some.inj heq).symm
    have hid : q.id ∈ (entries.foldl Listener.addNew l).ids := by
      refine Listener.mem_roster.2 (Or.inr ⟨?_, hown⟩)
      exact List.mem_map_of_mem (f := Prod.fst) (hcomplete q hold hp hne)
    rcases List.mem_map.1 hid with ⟨e, he, heq⟩
    rcases hsound' e he with hosted | ⟨q', hq', _, rfl⟩
    · exact absurd (heq ▸ hosted) (hforeign q hold)
    · obtain rfl := hT'.eq_of_id hq' hq heq
      exact he
  · intro hdeaf
    have hhears := A.hears_present (m.announce info) rfl
    rw [hdeaf] at hhears
    cases hhears

/-- The departure of somebody else. -/
theorem destroy (h : A.Knows T m l) (n : Member α κ ι) (hhears : A.hears m = true) :
    A.Knows (without T n.id) m (l.hear (.destroy n.id)) := by
  have htable : (l.hear (.destroy n.id)).table =
      l.table.eraseP fun e => decide (e.1 = n.id) := rfl
  refine ⟨h.own, h.distinct.destroy n.id, ?_, ?_, ?_⟩
  · intro e he
    have hne : e.1 ≠ n.id := (h.distinct.mem_destroy.1 (mem_ids he)).2
    rw [htable] at he
    rcases h.sound e (List.mem_of_mem_eraseP he) with hosted | ⟨q, hq, hp, rfl⟩
    · exact Or.inl hosted
    · exact Or.inr ⟨q, mem_without.2 ⟨hq, hne⟩, hp, rfl⟩
  · intro hm q hq hp hne
    rcases mem_without.1 hq with ⟨hold, hid⟩
    rw [htable, List.mem_eraseP_of_neg (by simp [Member.entry, hid])]
    exact h.complete hm q hold hp hne
  · intro hdeaf
    rw [hhears] at hdeaf
    cases hdeaf

/-- A present member holds the other present members, each once, and what the service hosts. -/
theorem perm [DecidablePred A.hosted] (h : A.Knows T m l) (hT : WellFormed T)
    (hforeign : ∀ q ∈ T, ¬ A.hosted q.id) (hm : m.present = true) :
    (l.table.filter fun e => !decide (A.hosted e.1)).Perm (peerEntries T m.id) := by
  have hids : (peerEntries T m.id).map Prod.fst = (peers T m.id).map Member.id := by
    simp [peerEntries, Member.entry, Function.comp_def]
  have hnodup : ((peerEntries T m.id).map Prod.fst).Nodup := by
    rw [hids]
    exact (hT.filter _).ids
  have htable : l.table.Nodup := List.Nodup.of_map _ h.distinct.nodup
  rw [List.perm_ext_iff_of_nodup (htable.filter _) (List.Nodup.of_map _ hnodup)]
  intro e
  rw [List.mem_filter]
  constructor
  · rintro ⟨he, hnot⟩
    rcases h.sound e he with hosted | ⟨q, hq, hp, rfl⟩
    · simp [hosted] at hnot
    · refine List.mem_map_of_mem (mem_peers.2 ⟨hq, hp, ?_⟩)
      intro heq
      exact h.distinct.notOwn m.id h.own (heq ▸ mem_ids he)
  · intro he
    rcases List.mem_map.1 he with ⟨q, hq, rfl⟩
    rcases mem_peers.1 hq with ⟨hold, hp, hne⟩
    have hnot : ¬ A.hosted q.entry.1 := hforeign q hold
    exact ⟨h.complete hm q hold hp hne, by simp [hnot]⟩

end Knows

/-! ## What a step says -/

section Steps

variable [DecidableEq α] [DecidableEq κ]

/-- What the notes of a step have to say to the members. -/
def Tells (T : List (Member α κ ι)) (out : List (α × Note κ ι)) : Act α κ ι → Prop
  | .idle => ∀ q ∈ T, heard out q.addr = []
  | .relay _ => ∀ q ∈ T, heard out q.addr = []
  | .join a id _ =>
      (∀ q ∈ T, q.addr ≠ a ∧ q.id ≠ id) ∧ ¬ A.hosted id ∧ ∀ q ∈ T, heard out q.addr = []
  | .announce id info =>
      ∃ m ∈ T, m.id = id ∧ m.present = false ∧
        (∀ q ∈ T, q.id ≠ id → heard out q.addr = if A.hears q then [.create id info] else []) ∧
        ∃ entries, heard out m.addr = (if entries = [] then [] else [.roster entries]) ∧
          (∀ e ∈ entries, A.hosted e.1 ∨
            ∃ q ∈ apply T (.announce id info), q.present = true ∧ q.entry = e) ∧
          ∀ q ∈ T, q.present = true → q.id ≠ id → q.entry ∈ entries
  | .leave id =>
      ∃ m ∈ T, m.id = id ∧ ∀ q ∈ T, heard out q.addr =
        if m.present && A.hears q && !decide (q.id = id) then [.destroy id] else []
  | .close => False

/-- What an address outside the table gets: its id, if it joins. -/
def greeting : Act α κ ι → α → List (Note κ ι)
  | .join b id _, a => if b = a then [.assign id] else []
  | _, _ => []

/-- What the notes of a step have to say to whom. -/
structure Serves (T : List (Member α κ ι)) (out : List (α × Note κ ι)) (act : Act α κ ι) :
    Prop where
  members : A.Tells T out act
  strangers : ∀ a, (∀ q ∈ T, q.addr ≠ a) → heard out a = greeting act a

/-- The members' tables behind the notes sent so far. -/
structure Informed (T : List (Member α κ ι)) (mail : List (α × Note κ ι)) : Prop where
  wf : WellFormed T
  foreign : ∀ m ∈ T, ¬ A.hosted m.id
  knows : ∀ m ∈ T, A.Knows T m (Listener.after (heard mail m.addr))

namespace Informed

variable {A} {T : List (Member α κ ι)} {mail out : List (α × Note κ ι)}

theorem nil : A.Informed [] [] := by
  refine ⟨⟨List.nodup_nil, List.nodup_nil⟩, ?_, ?_⟩
  · intro m hm
    cases hm
  · intro m hm
    cases hm

/-- A step that says nothing to the members. -/
theorem quiet (h : A.Informed T mail) (hout : ∀ q ∈ T, heard out q.addr = []) :
    A.Informed T (mail ++ out) := by
  refine ⟨h.wf, h.foreign, ?_⟩
  intro m hm
  rw [heard_append, hout m hm, List.append_nil]
  exact h.knows m hm

theorem join (h : A.Informed T mail) {a : α} {id : κ} {info : ι}
    (hserves : A.Serves T out (.join a id info)) :
    A.Informed (apply T (.join a id info)) (mail ++ out) := by
  rcases hserves.members with ⟨hfresh, hforeign, hquiet⟩
  have hassigned : heard out a = [.assign id] := by
    rw [hserves.strangers a fun q hq => (hfresh q hq).1]
    simp [greeting]
  have hkeep : ∀ q ∈ apply T (.join a id info), q.present = true → q ∈ T := by
    intro q hq hp
    rcases List.mem_append.1 hq with hold | hnew
    · exact hold
    · rw [List.mem_singleton.1 hnew] at hp
      cases hp
  refine ⟨h.wf.snoc (fun q hq => (hfresh q hq).1) (fun q hq => (hfresh q hq).2), ?_, ?_⟩
  · intro m hm
    rcases List.mem_append.1 hm with hold | hnew
    · exact h.foreign m hold
    · rw [List.mem_singleton.1 hnew]
      exact hforeign
  · intro m hm
    rcases List.mem_append.1 hm with hold | hnew
    · rw [heard_append, hquiet m hold, List.append_nil]
      exact (h.knows m hold).same (fun q hq _ => List.mem_append_left _ hq) hkeep
    · obtain rfl := List.mem_singleton.1 hnew
      -- An assignment starts afresh, whatever the address has heard before.
      rw [heard_append, hassigned, Listener.after_assign]
      refine ⟨rfl, ⟨List.nodup_nil, ?_⟩, ?_, ?_, fun _ => rfl⟩
      · intro k _ hk
        cases hk
      · intro e he
        cases he
      · intro hp
        cases hp

theorem announce (h : A.Informed T mail) {id : κ} {info : ι}
    (hserves : A.Serves T out (.announce id info)) :
    A.Informed (apply T (.announce id info)) (mail ++ out) := by
  rcases hserves.members with
    ⟨n, hn, rfl, habsent, hothers, entries, hroster, hsound, hcomplete⟩
  refine ⟨h.wf.announce n.id info, ?_, ?_⟩
  · intro m hm
    rcases mem_announce.1 hm with ⟨hold, _⟩ | ⟨n', hn', _, rfl⟩
    · exact h.foreign m hold
    · exact h.foreign n' hn'
  · intro m hm
    rcases mem_announce.1 hm with ⟨hold, hne⟩ | ⟨n', hn', hid, rfl⟩
    · have hknows := h.knows m hold
      rw [heard_append, hothers m hold hne]
      cases hhears : A.hears m with
      | true =>
        rw [if_pos rfl, Listener.after_snoc]
        exact hknows.create h.wf h.foreign hn habsent hne info hhears
      | false =>
        rw [if_neg (by simp), List.append_nil]
        exact hknows.of_deaf hhears _
    · -- The newcomer itself: it gets the roster, or nothing when that is empty.
      obtain rfl := h.wf.eq_of_id hn' hn hid
      have hknows := (h.knows n' hn).roster h.wf h.foreign hn habsent info hsound hcomplete
      have hheard : Listener.after (heard (mail ++ out) n'.addr) =
          entries.foldl Listener.addNew (Listener.after (heard mail n'.addr)) := by
        rw [heard_append, hroster]
        by_cases hnil : entries = []
        · simp [hnil]
        · rw [if_neg hnil, Listener.after_snoc]
          rfl
      have haddr : (n'.announce info).addr = n'.addr := rfl
      rw [haddr, hheard]
      exact hknows

theorem leave (h : A.Informed T mail) {id : κ} (hserves : A.Serves T out (.leave id)) :
    A.Informed (apply T (.leave id)) (mail ++ out) := by
  rcases hserves.members with ⟨n, hn, rfl, hothers⟩
  refine ⟨h.wf.filter _, fun m hm => h.foreign m (mem_without.1 hm).1, ?_⟩
  intro m hm
  rcases mem_without.1 hm with ⟨hold, hne⟩
  have hknows := h.knows m hold
  rw [heard_append, hothers m hold]
  cases hhears : A.hears m with
  | false =>
    rw [if_neg (by simp), List.append_nil]
    exact hknows.of_deaf hhears _
  | true =>
    cases hpresent : n.present with
    | true =>
      rw [if_pos (by simp [hne]), Listener.after_snoc]
      exact hknows.destroy n hhears
    | false =>
      -- Nobody is told of a leaver who was not present, and nobody knew of it.
      rw [if_neg (by simp), List.append_nil]
      refine hknows.same ?_ fun q hq _ => (mem_without.1 hq).1
      intro q hq hp
      refine mem_without.2 ⟨hq, ?_⟩
      intro hid
      obtain rfl := h.wf.eq_of_id hq hn hid
      rw [hpresent] at hp
      cases hp

/-- What a step brings to the members keeps their tables right. -/
theorem step (h : A.Informed T mail) {act : Act α κ ι} (hserves : A.Serves T out act) :
    A.Informed (apply T act) (mail ++ out) := by
  cases act with
  | idle => exact h.quiet hserves.members
  | join a id info => exact h.join hserves
  | announce id info => exact h.announce hserves
  | relay id => exact h.quiet hserves.members
  | leave id => exact h.leave hserves
  | close => exact hserves.members.elim

end Informed

/-! ## Sessions -/

/-- The addresses used behind an act. -/
def usedBy (used : List α) : Act α κ ι → List α
  | .join a _ _ => used ++ [a]
  | _ => used

/-- An address hears nothing before it joins, then its id, and neither another one nor its own
departure. -/
structure Greeted (T : List (Member α κ ι)) (mail : List (α × Note κ ι)) (used : List α) :
    Prop where
  joined : ∀ m ∈ T, m.addr ∈ used
  silent : ∀ a, a ∉ used → heard mail a = []
  first : ∀ m ∈ T, ∃ rest, heard mail m.addr = .assign m.id :: rest ∧
    (∀ k, .assign k ∉ rest) ∧ .destroy m.id ∉ rest

section Sessions

variable {A} {T : List (Member α κ ι)} {mail out : List (α × Note κ ι)} {act : Act α κ ι}

/-- A member is not assigned anything, nor told of its own departure. -/
theorem Serves.to_member (h : A.Serves T out act) (hT : WellFormed T) {q : Member α κ ι}
    (hq : q ∈ T) : (∀ k, .assign k ∉ heard out q.addr) ∧ .destroy q.id ∉ heard out q.addr := by
  have hmembers := h.members
  cases act with
  | idle => simp [hmembers q hq]
  | relay id => simp [hmembers q hq]
  | join a id info => simp [hmembers.2.2 q hq]
  | announce id info =>
    rcases hmembers with ⟨m, hm, rfl, _, hothers, entries, hroster, _⟩
    by_cases hid : q.id = m.id
    · rw [hT.eq_of_id hq hm hid, hroster]
      split <;> simp
    · rw [hothers q hq hid]
      split <;> simp
  | leave id =>
    rcases hmembers with ⟨m, _, _, hothers⟩
    rw [hothers q hq]
    by_cases hid : q.id = id
    · simp [hid]
    · split <;> simp [hid]
  | close => exact hmembers.elim

/-- Services that take part in the same act assign the same. -/
theorem Serves.assigned (h : A.Serves T out act) (hT : WellFormed T) (a : α) :
    (heard out a).filterMap Note.assigned = (greeting act a).filterMap Note.assigned := by
  by_cases hmember : ∃ q ∈ T, q.addr = a
  · rcases hmember with ⟨q, hq, rfl⟩
    have hnone : (heard out q.addr).filterMap Note.assigned = [] := by
      rw [List.filterMap_eq_nil_iff]
      intro note hnote
      cases note with
      | assign k => exact absurd hnote ((h.to_member hT hq).1 k)
      | _ => rfl
    have hgreeting : greeting act q.addr = [] := by
      cases act with
      | join b id info => exact if_neg fun heq => (h.members.1 q hq).1 heq.symm
      | _ => rfl
    rw [hnone, hgreeting]
    rfl
  · rw [h.strangers a fun q hq heq => hmember ⟨q, hq, heq⟩]

omit [DecidableEq κ] in
theorem greeted_nil : Greeted ([] : List (Member α κ ι)) [] [] := by
  refine ⟨?_, fun _ _ => rfl, ?_⟩
  · intro m hm
    cases hm
  · intro m hm
    cases hm

omit [DecidableEq κ] in
/-- A member has been assigned its id and no other. -/
theorem Greeted.assigned {used : List α} (h : Greeted T mail used) {m : Member α κ ι}
    (hm : m ∈ T) : (heard mail m.addr).filterMap Note.assigned = [m.id] := by
  rcases h.first m hm with ⟨rest, hheard, hassign, _⟩
  have hnone : rest.filterMap Note.assigned = [] := by
    rw [List.filterMap_eq_nil_iff]
    intro note hnote
    cases note with
    | assign k => exact absurd hnote (hassign k)
    | _ => rfl
  rw [hheard, List.filterMap_cons, hnone]
  rfl

/-- A step keeps this as long as nobody joins from an address that has been used. -/
theorem Greeted.step {used : List α} (h : Greeted T mail used) (hT : WellFormed T)
    (hserves : A.Serves T out act) (hfresh : ∀ a id info, act = .join a id info → a ∉ used) :
    Greeted (apply T act) (mail ++ out) (usedBy used act) := by
  have hsub : ∀ a ∈ used, a ∈ usedBy used act := by
    intro a ha
    cases act with
    | join b id info => exact List.mem_append_left _ ha
    | _ => exact ha
  -- An unused address has heard nothing, so after the step it has heard its greeting.
  have hstranger : ∀ a, a ∉ used → heard (mail ++ out) a = greeting act a := by
    intro a ha
    rw [heard_append, h.silent a ha, List.nil_append]
    refine hserves.strangers a ?_
    rintro q hq rfl
    exact ha (h.joined q hq)
  refine ⟨?_, ?_, ?_⟩
  · intro m hm
    rcases mem_apply hm with ⟨q, hq, haddr, _⟩ | ⟨info, rfl⟩
    · exact haddr ▸ hsub _ (h.joined q hq)
    · exact List.mem_append_right _ (List.mem_singleton_self _)
  · intro a ha
    rw [hstranger a fun hused => ha (hsub a hused)]
    cases act with
    | join b id info =>
      refine if_neg ?_
      rintro rfl
      exact ha (List.mem_append_right _ (List.mem_singleton_self _))
    | _ => rfl
  · intro m hm
    rcases mem_apply hm with ⟨q, hq, haddr, hid⟩ | ⟨info, hact⟩
    · rcases h.first q hq with ⟨rest, hheard, hassign, hdestroy⟩
      have hnow := hserves.to_member hT hq
      refine ⟨rest ++ heard out q.addr, ?_, ?_, ?_⟩
      · rw [← haddr, ← hid, heard_append, hheard, List.cons_append]
      · intro k hk
        rcases List.mem_append.1 hk with hold | hnew
        · exact hassign k hold
        · exact hnow.1 k hnew
      · rw [← hid]
        intro hk
        rcases List.mem_append.1 hk with hold | hnew
        · exact hdestroy hold
        · exact hnow.2 hnew
    · -- The member that joins in this step: its address is new, the assignment comes first.
      refine ⟨[], ?_, by simp, by simp⟩
      rw [hstranger m.addr (hfresh m.addr m.id info hact), hact]
      exact if_pos rfl

end Sessions

/-! ## The service that tells those who are present -/

/-- Notes go to present members, and the service has no members of its own. -/
def presentOnly : Audience α κ ι where
  hears := Member.present
  hosted := fun _ => False
  hears_present := fun _ h => h

/-- Notes go to everybody in the table. -/
def everybody (hosted : κ → Prop) : Audience α κ ι where
  hears := fun _ => true
  hosted := hosted
  hears_present := fun _ _ => rfl

omit [DecidableEq κ] in
theorem heard_of_inbox {mail : List (α × Note κ ι)} {a : α} (h : inbox mail a = []) :
    heard mail a = [] := by
  rw [heard, h]
  rfl

theorem heard_relay (T : List (Member α κ ι)) (id k : κ) (a : α) :
    heard (broadcast T id (.relay k)) a = [] := by
  rw [heard, List.filterMap_eq_nil_iff]
  intro note hnote
  have hsaid : note = .relay k := (mem_broadcast (mem_inbox.1 hnote)).1
  rw [hsaid]
  rfl

section Lobbies

variable {T T' : List (Member α κ ι)} {act : Act α κ ι} {out : List (α × Note κ ι)}

theorem tells_of_step (hT : WellFormed T) (h : Step T act out T')
    (honce : ∀ id info, act = .announce id info → ∀ m ∈ T, m.id = id → m.present = false)
    (hopen : act ≠ .close) : presentOnly.Tells T out act := by
  cases h with
  | idle =>
    intro q _
    rfl
  | join _ a id info haddr hid =>
    refine ⟨fun q hq => ⟨haddr q hq, hid q hq⟩, fun hfalse => hfalse, ?_⟩
    intro q hq
    have hne : ¬ a = q.addr := fun heq => haddr q hq heq.symm
    simp [heard, hne]
  | announce before after m info =>
    have hm : m ∈ before ++ m :: after := by simp
    refine ⟨m, hm, rfl, honce m.id info rfl m hm rfl, ?_,
      (peers (before ++ m :: after) m.id).map Member.entry, ?_, ?_, ?_⟩
    · intro q hq hne
      have hq' : q ∈ before ++ m.announce info :: after :=
        mem_replace_of_ne hq fun heq => hne (by rw [heq])
      rw [heard, inbox_announce_other info hT hq' hne]
      cases hp : q.present <;> simp [presentOnly, Note.spoken, hp]
    · rw [heard, inbox_announce_self info hT]
      by_cases hnil : peers (before ++ m :: after) m.id = [] <;> simp [hnil, Note.spoken]
    · intro e he
      rcases List.mem_map.1 he with ⟨q, hq, rfl⟩
      rcases mem_peers.1 hq with ⟨hold, hp, hne⟩
      exact Or.inr ⟨q, mem_announce.2 (Or.inl ⟨hold, hne⟩), hp, rfl⟩
    · intro q hq hp hne
      exact List.mem_map_of_mem (mem_peers.2 ⟨hq, hp, hne⟩)
  | relay _ m _ _ =>
    intro q _
    exact heard_relay T m.id m.id q.addr
  | leave _ m hm =>
    refine ⟨m, hm, rfl, ?_⟩
    intro q hq
    cases hp : m.present with
    | false => simp
    | true =>
      by_cases hid : q.id = m.id
      · -- The leaver is out of the table when the broadcast goes out.
        obtain rfl := hT.eq_of_id hq hm hid
        have hgone : ∀ r ∈ without T q.id, r.addr ≠ q.addr := by
          intro r hr heq
          rcases mem_without.1 hr with ⟨hold, hne⟩
          exact hne (by rw [hT.eq_of_addr hold hq heq])
        rw [if_pos rfl, heard_of_inbox (inbox_broadcast_of_not_mem hgone _ _)]
        simp
      · have hstays : q ∈ without T m.id := mem_without.2 ⟨hq, hid⟩
        have hrest : WellFormed (without T m.id) := hT.filter _
        rw [heard, if_pos rfl, hrest.inbox_broadcast hstays]
        cases hpresent : q.present <;> simp [presentOnly, Note.spoken, hpresent, hid]
  | close => exact absurd rfl hopen

theorem heard_of_stranger (h : Step T act out T') (hopen : act ≠ .close) {a : α}
    (ha : ∀ q ∈ T, q.addr ≠ a) : heard out a = greeting act a := by
  cases h with
  | idle => rfl
  | join _ b id info _ _ => by_cases hb : b = a <;> simp [heard, greeting, Note.spoken, hb]
  | announce before after m info =>
    -- An announcement changes no address.
    have hnew : ∀ q ∈ before ++ m.announce info :: after, q.addr ≠ a := by
      intro q hq
      by_cases hself : q = m.announce info
      · rw [hself]
        exact ha m (by simp)
      · exact ha q (mem_replace_of_ne hq hself)
    have hroster := inbox_rosterFor (before ++ m.announce info :: after) (m.announce info) a
    rw [if_neg fun hto => ha m (by simp) hto.1] at hroster
    rw [heard_append, heard_of_inbox (inbox_broadcast_of_not_mem hnew _ _),
      heard_of_inbox hroster]
    rfl
  | relay _ m _ _ => exact heard_relay T m.id m.id a
  | leave _ m hm =>
    have hgone : ∀ r ∈ without T m.id, r.addr ≠ a := fun r hr => ha r (mem_without.1 hr).1
    split
    · exact heard_of_inbox (inbox_broadcast_of_not_mem hgone _ _)
    · rfl
  | close => exact absurd rfl hopen

/-- The lobby is the service that tells those who are present. -/
theorem serves_of_step (hT : WellFormed T) (h : Step T act out T')
    (honce : ∀ id info, act = .announce id info → ∀ m ∈ T, m.id = id → m.present = false)
    (hopen : act ≠ .close) : presentOnly.Serves T out act :=
  ⟨tells_of_step hT h honce hopen, fun _ ha => heard_of_stranger h hopen ha⟩

end Lobbies

/-! ## The service that tells everybody -/

/-- One note to every member but `id`. -/
def tellOthers (T : List (Member α κ ι)) (id : κ) (note : Note κ ι) : List (α × Note κ ι) :=
  (without T id).map fun m => (m.addr, note)

section Everybody

variable {T : List (Member α κ ι)} {hosted : κ → Prop} {note : Note κ ι}

theorem inbox_tellOthers (hT : WellFormed T) {q : Member α κ ι} (hq : q ∈ T) (id : κ) :
    inbox (tellOthers T id note) q.addr = if q.id = id then [] else [note] := by
  by_cases hid : q.id = id
  · rw [if_pos hid]
    apply inbox_map_of_not_mem
    intro r hr heq
    rcases mem_without.1 hr with ⟨hold, hne⟩
    exact hne (by rw [hT.eq_of_addr hold hq heq, hid])
  · rw [if_neg hid]
    have hrest : WellFormed (without T id) := hT.filter _
    exact inbox_map_of_mem note hrest.addrs (mem_without.2 ⟨hq, hid⟩)

theorem inbox_tellOthers_of_not_mem {a : α} (ha : ∀ q ∈ T, q.addr ≠ a) (id : κ) :
    inbox (tellOthers T id note) a = [] :=
  inbox_map_of_not_mem note fun q hq => ha q (mem_without.1 hq).1

theorem heard_tellOthers (hT : WellFormed T) {q : Member α κ ι} (hq : q ∈ T) (id : κ) :
    heard (tellOthers T id note) q.addr = if q.id = id then [] else note.spoken.toList := by
  rw [heard, inbox_tellOthers hT hq]
  by_cases hid : q.id = id
  · simp [hid]
  · cases note <;> simp [hid, Note.spoken]

theorem everybody_join {a : α} {id : κ} (info : ι) (hfresh : ∀ q ∈ T, q.addr ≠ a ∧ q.id ≠ id)
    (hforeign : ¬ hosted id) :
    (everybody hosted).Serves T [(a, .assign id)] (.join a id info) := by
  refine ⟨⟨hfresh, hforeign, ?_⟩, ?_⟩
  · intro q hq
    have hne : ¬ a = q.addr := fun heq => (hfresh q hq).1 heq.symm
    simp [heard, hne]
  · intro b _
    by_cases hb : a = b <;> simp [heard, greeting, Note.spoken, hb]

theorem everybody_announce (hT : WellFormed T) {m : Member α κ ι} (hm : m ∈ T)
    (habsent : m.present = false) (info : ι) {entries : List (κ × ι)} (hnil : entries ≠ [])
    (hsound : ∀ e ∈ entries, hosted e.1 ∨
      ∃ q ∈ apply T (.announce m.id info), q.present = true ∧ q.entry = e)
    (hcomplete : ∀ q ∈ T, q.present = true → q.entry ∈ entries) :
    (everybody hosted).Serves T
      (tellOthers T m.id (.create m.id info) ++ [(m.addr, .roster entries)])
      (.announce m.id info) := by
  refine ⟨⟨m, hm, rfl, habsent, ?_, entries, ?_, hsound, fun q hq hp _ => hcomplete q hq hp⟩, ?_⟩
  · intro q hq hne
    have haddr : ¬ m.addr = q.addr := fun heq => hne (by rw [hT.eq_of_addr hm hq heq])
    rw [heard_append, heard_tellOthers hT hq]
    simp [heard, hne, haddr, everybody, Note.spoken]
  · rw [heard_append, heard_tellOthers hT hm]
    simp [heard, hnil, Note.spoken]
  · intro a ha
    rw [heard_append, heard_of_inbox (inbox_tellOthers_of_not_mem ha _)]
    simp [heard, greeting, ha m hm]

theorem everybody_leave (hT : WellFormed T) {m : Member α κ ι} (hm : m ∈ T) :
    (everybody hosted).Serves T
      (if m.present then tellOthers T m.id (.destroy m.id) else []) (.leave m.id) := by
  refine ⟨⟨m, hm, rfl, ?_⟩, ?_⟩
  · intro q hq
    cases hp : m.present with
    | false => simp
    | true =>
      rw [if_pos rfl, heard_tellOthers hT hq]
      by_cases hid : q.id = m.id <;> simp [everybody, Note.spoken, hid]
  · intro a ha
    split
    · exact heard_of_inbox (inbox_tellOthers_of_not_mem ha _)
    · rfl

/-- Relayed notes change nothing, whoever they are about and whoever gets them. -/
theorem serves_relay (A : Audience α κ ι) {act : Act α κ ι} (hT : WellFormed T) (id k : κ)
    (hact : act = .idle ∨ act = .relay id) :
    A.Serves T (tellOthers T id (.relay k)) act := by
  have hmembers : ∀ q ∈ T, heard (tellOthers T id (.relay k)) q.addr = [] := by
    intro q hq
    rw [heard_tellOthers hT hq]
    split <;> rfl
  have hstrangers : ∀ a, (∀ q ∈ T, q.addr ≠ a) → heard (tellOthers T id (.relay k)) a = [] :=
    fun a ha => heard_of_inbox (inbox_tellOthers_of_not_mem ha _)
  rcases hact with rfl | rfl
  · exact ⟨hmembers, hstrangers⟩
  · exact ⟨hmembers, hstrangers⟩

end Everybody

end Steps

end Audience
end Lobby
end Crossover
