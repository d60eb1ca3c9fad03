import Mathlib.Data.Finset.Basic
import Mathlib.Data.Finset.Image
import Mathlib.Data.List.Nodup
import Crossover.Lib.History

/-!
# Lobby — members, announcements and what each member has been told

An abstract session service.  Members hold an address and an id; a member is *present* once it has
announced itself.  The service tells present members about each other: an announcement goes to
everyone else present, the newcomer gets a roster, and a present member that leaves is reported to
those who stay.  Nothing but its own assignment is sent to a member that is not present.

`Step T act mail T'` is one step of the service with the notes it sends.  `Agrees` relates the
member table to the notes sent so far: what an address has been told since its last assignment is
exactly the set of the other present members.
-/

namespace Crossover
namespace Lobby

open History

universe u v w

/-- An entry of the member table; `info` is what an announcement says besides the id. -/
structure Member (α : Type u) (κ : Type v) (ι : Type w) where
  addr : α
  id : κ
  present : Bool
  info : ι
  deriving DecidableEq

/-- What the service says to a member. -/
inductive Note (κ : Type v) (ι : Type w)
  | assign (id : κ)
  | create (id : κ) (info : ι)
  | roster (entries : List (κ × ι))
  | destroy (id : κ)
  | relay (id : κ)

/-- What happens to the service. -/
inductive Act (α : Type u) (κ : Type v) (ι : Type w)
  | idle
  | join (addr : α) (id : κ) (info : ι)
  | announce (id : κ) (info : ι)
  | relay (id : κ)
  | leave (id : κ)
  | close

variable {α : Type u} {κ : Type v} {ι : Type w}

namespace Note

/-- The ids a note announces. -/
def announced : Note κ ι → List κ
  | .create id _ => [id]
  | .roster entries => entries.map Prod.fst
  | _ => []

/-- The id a note takes to be known already. -/
def mentioned : Note κ ι → Option κ
  | .destroy id => some id
  | .relay id => some id
  | _ => none

end Note

/-- Addresses and ids are not shared. -/
structure WellFormed (T : List (Member α κ ι)) : Prop where
  addrs : (T.map Member.addr).Nodup
  ids : (T.map Member.id).Nodup

namespace WellFormed

theorem eq_of_addr {T : List (Member α κ ι)} (hT : WellFormed T) {m q : Member α κ ι}
    (hm : m ∈ T) (hq : q ∈ T) (h : m.addr = q.addr) : m = q :=
  List.inj_on_of_nodup_map hT.addrs hm hq h

theorem eq_of_id {T : List (Member α κ ι)} (hT : WellFormed T) {m q : Member α κ ι}
    (hm : m ∈ T) (hq : q ∈ T) (h : m.id = q.id) : m = q :=
  List.inj_on_of_nodup_map hT.ids hm hq h

theorem filter {T : List (Member α κ ι)} (hT : WellFormed T) (p : Member α κ ι → Bool) :
    WellFormed (T.filter p) where
  addrs := hT.addrs.sublist (List.Sublist.map _ List.filter_sublist)
  ids := hT.ids.sublist (List.Sublist.map _ List.filter_sublist)

/-- Appending a member with a new address and a new id. -/
theorem snoc {T : List (Member α κ ι)} (hT : WellFormed T) {m : Member α κ ι}
    (haddr : ∀ q ∈ T, q.addr ≠ m.addr) (hid : ∀ q ∈ T, q.id ≠ m.id) : WellFormed (T ++ [m]) := by
  constructor
  · rw [List.map_append, List.nodup_append]
    refine ⟨hT.addrs, by simp, ?_⟩
    intro x hx y hy
    rcases List.mem_map.1 hx with ⟨q, hq, rfl⟩
    have hy' : y = m.addr := by simpa using hy
    exact hy' ▸ haddr q hq
  · rw [List.map_append, List.nodup_append]
    refine ⟨hT.ids, by simp, ?_⟩
    intro x hx y hy
    rcases List.mem_map.1 hx with ⟨q, hq, rfl⟩
    have hy' : y = m.id := by simpa using hy
    exact hy' ▸ hid q hq

/-- Changing presence and info of one entry. -/
theorem replace {before after : List (Member α κ ι)} {m n : Member α κ ι}
    (hT : WellFormed (before ++ m :: after)) (haddr : n.addr = m.addr) (hid : n.id = m.id) :
    WellFormed (before ++ n :: after) where
  addrs := by simpa [haddr] using hT.addrs
  ids := by simpa [hid] using hT.ids

end WellFormed

/-- Replacing one entry of a table keeps the others. -/
theorem mem_replace_of_ne {before after : List (Member α κ ι)} {m m' q : Member α κ ι}
    (hq : q ∈ before ++ m :: after) (hne : q ≠ m) : q ∈ before ++ m' :: after := by
  rcases List.mem_append.1 hq with hq | hq
  · exact List.mem_append_left _ hq
  · rcases List.mem_cons.1 hq with rfl | hq
    · exact absurd rfl hne
    · exact List.mem_append_right _ (List.mem_cons_of_mem _ hq)

/-! ## Steps -/

section Steps

variable [DecidableEq κ]

/-- The present members other than `id`. -/
def peers (T : List (Member α κ ι)) (id : κ) : List (Member α κ ι) :=
  T.filter fun m => m.present && !decide (m.id = id)

/-- One note to each present member other than `id`. -/
def broadcast (T : List (Member α κ ι)) (id : κ) (note : Note κ ι) : List (α × Note κ ι) :=
  (peers T id).map fun m => (m.addr, note)

/-- What a roster says about a member. -/
def Member.entry (m : Member α κ ι) : κ × ι :=
  (m.id, m.info)

/-- The roster sent to `m`, unless it would be empty. -/
def rosterFor (T : List (Member α κ ι)) (m : Member α κ ι) : List (α × Note κ ι) :=
  if peers T m.id = [] then []
  else [(m.addr, .roster ((peers T m.id).map Member.entry))]

/-- The table without the member `id`. -/
def without (T : List (Member α κ ι)) (id : κ) : List (Member α κ ι) :=
  T.filter fun m => !decide (m.id = id)

/-- The notes of a shutdown: every present member is reported to all the others. -/
def farewell (T : List (Member α κ ι)) : List (α × Note κ ι) :=
  (T.filter fun m => m.present).flatMap fun m => broadcast T m.id (.destroy m.id)

/-- A member once it has announced itself. -/
def Member.announce (m : Member α κ ι) (info : ι) : Member α κ ι :=
  { m with present := true, info := info }

/-- One step of the service: the table before, what happens, the notes sent, the table after. -/
inductive Step :
    List (Member α κ ι) → Act α κ ι → List (α × Note κ ι) → List (Member α κ ι) → Prop
  | idle (T : List (Member α κ ι)) : Step T .idle [] T
  | join (T : List (Member α κ ι)) (a : α) (id : κ) (info : ι) :
      (∀ m ∈ T, m.addr ≠ a) → (∀ m ∈ T, m.id ≠ id) →
        Step T (.join a id info) [(a, .assign id)]
          (T ++ [{ addr := a, id := id, present := false, info := info }])
  | announce (before after : List (Member α κ ι)) (m : Member α κ ι) (info : ι) :
      Step (before ++ m :: after) (.announce m.id info)
        (broadcast (before ++ m.announce info :: after) m.id (.create m.id info) ++
          rosterFor (before ++ m.announce info :: after) (m.announce info))
        (before ++ m.announce info :: after)
  | relay (T : List (Member α κ ι)) (m : Member α κ ι) :
      m ∈ T → m.present = true → Step T (.relay m.id) (broadcast T m.id (.relay m.id)) T
  | leave (T : List (Member α κ ι)) (m : Member α κ ι) :
      m ∈ T →
        Step T (.leave m.id)
          (if m.present then broadcast (without T m.id) m.id (.destroy m.id) else [])
          (without T m.id)
  | close (T : List (Member α κ ι)) : Step T .close (farewell T) []

/-- Only a join brings an address into the table. -/
theorem Step.addr_of_mem {T T' : List (Member α κ ι)} {act : Act α κ ι}
    {out : List (α × Note κ ι)} (h : Step T act out T') {a : α} (ha : a ∈ T'.map Member.addr) :
    a ∈ T.map Member.addr ∨ ∃ id info, act = .join a id info := by
  cases h with
  | idle => exact Or.inl ha
  | join T b id info _ _ =>
    rw [List.map_append] at ha
    rcases List.mem_append.1 ha with ha | ha
    · exact Or.inl ha
    · obtain rfl := List.mem_singleton.1 ha
      exact Or.inr ⟨id, info, rfl⟩
  | announce before after m info => exact Or.inl (by simpa [Member.announce] using ha)
  | relay => exact Or.inl ha
  | leave T m _ =>
    rcases List.mem_map.1 ha with ⟨q, hq, rfl⟩
    exact Or.inl (List.mem_map_of_mem (List.mem_filter.1 hq).1)
  | close => cases ha

/-- The act announces a member that is present already, in front of an audience. -/
def Repeats (T : List (Member α κ ι)) : Act α κ ι → Prop
  | .announce id _ => (∃ m ∈ T, m.id = id ∧ m.present = true) ∧ peers T id ≠ []
  | _ => False

/-- How a note changes the set of ids its receiver knows. -/
def hear (known : Finset κ) : Note κ ι → Finset κ
  | .assign _ => ∅
  | .create id _ => insert id known
  | .roster entries => known ∪ (entries.map Prod.fst).toFinset
  | .destroy id => known.erase id
  | .relay _ => known

/-- The ids the receiver of these notes knows, since its last assignment. -/
def told (notes : List (Note κ ι)) : Finset κ :=
  notes.foldl hear ∅

/-- The ids of the present members other than `id`. -/
def peerIds (T : List (Member α κ ι)) (id : κ) : Finset κ :=
  ((peers T id).map Member.id).toFinset

@[simp] theorem told_nil : told ([] : List (Note κ ι)) = ∅ := rfl

theorem told_append (notes more : List (Note κ ι)) :
    told (notes ++ more) = more.foldl hear (told notes) := by
  simp [told]

theorem told_snoc (notes : List (Note κ ι)) (note : Note κ ι) :
    told (notes ++ [note]) = hear (told notes) note := by
  simp [told]

@[simp] theorem mem_peers {T : List (Member α κ ι)} {id : κ} {m : Member α κ ι} :
    m ∈ peers T id ↔ m ∈ T ∧ m.present = true ∧ m.id ≠ id := by
  simp [peers]

theorem mem_broadcast {T : List (Member α κ ι)} {id : κ} {note : Note κ ι}
    {item : α × Note κ ι} (h : item ∈ broadcast T id note) :
    item.2 = note ∧ ∃ q ∈ peers T id, q.addr = item.1 := by
  rcases List.mem_map.1 h with ⟨q, hq, rfl⟩
  exact ⟨rfl, q, hq, rfl⟩

/-- The notes of an announcement mention nobody. -/
theorem mentioned_announce {item : α × Note κ ι} {m : Member α κ ι} {info : ι}
    (h : item ∈ broadcast T m.id (.create m.id info) ++ rosterFor T m) :
    item.2.mentioned = none := by
  rcases List.mem_append.1 h with h | h
  · rw [(mem_broadcast h).1]
    rfl
  · by_cases hp : peers T m.id = []
    · simp [rosterFor, hp] at h
    · obtain rfl : item = (m.addr, .roster ((peers T m.id).map Member.entry)) := by
        simpa [rosterFor, hp] using h
      rfl

@[simp] theorem mem_peerIds {T : List (Member α κ ι)} {id k : κ} :
    k ∈ peerIds T id ↔ ∃ m ∈ T, m.present = true ∧ m.id ≠ id ∧ m.id = k := by
  simp [peerIds, and_assoc]

@[simp] theorem mem_without {T : List (Member α κ ι)} {id : κ} {m : Member α κ ι} :
    m ∈ without T id ↔ m ∈ T ∧ m.id ≠ id := by
  simp [without]

/-- The peers of a member do not depend on the member's own entry. -/
theorem peers_announce (before after : List (Member α κ ι)) (m : Member α κ ι) (info : ι) :
    peers (before ++ m.announce info :: after) m.id = peers (before ++ m :: after) m.id := by
  simp [peers, Member.announce]

/-- To everyone else an announcement adds the announced member. -/
theorem peerIds_announce (before after : List (Member α κ ι)) (m : Member α κ ι) (info : ι)
    {id : κ} (hne : m.id ≠ id) :
    peerIds (before ++ m.announce info :: after) id =
      insert m.id (peerIds (before ++ m :: after) id) := by
  have hself : (m.announce info).present = true := rfl
  have hid : (m.announce info).id = m.id := rfl
  ext k
  simp only [mem_peerIds, Finset.mem_insert, List.mem_append, List.mem_cons]
  constructor
  · rintro ⟨q, hq | rfl | hq, hp, hqid, rfl⟩
    · exact Or.inr ⟨q, Or.inl hq, hp, hqid, rfl⟩
    · exact Or.inl hid
    · exact Or.inr ⟨q, Or.inr (Or.inr hq), hp, hqid, rfl⟩
  · rintro (rfl | ⟨q, hq | rfl | hq, hp, hqid, rfl⟩)
    · exact ⟨m.announce info, Or.inr (Or.inl rfl), hself, hne, hid⟩
    · exact ⟨q, Or.inl hq, hp, hqid, rfl⟩
    · exact ⟨q.announce info, Or.inr (Or.inl rfl), hself, hqid, hid⟩
    · exact ⟨q, Or.inr (Or.inr hq), hp, hqid, rfl⟩

/-- Hearing about a list of departures removes exactly those ids. -/
theorem foldl_hear_destroy (ids : List κ) (known : Finset κ) :
    (ids.map (Note.destroy : κ → Note κ ι)).foldl hear known = known \ ids.toFinset := by
  induction ids generalizing known with
  | nil => simp
  | cons id ids ih =>
    rw [List.map_cons, List.foldl_cons, ih]
    ext k
    simp [hear, and_assoc, and_left_comm]

/-- A list of departures of distinct known ids is sound at every point. -/
theorem every_destroy {ids : List κ} (hnodup : ids.Nodup) {known : List (Note κ ι)}
    (hknown : ∀ id ∈ ids, id ∈ told known) :
    Every (fun before (note : Note κ ι) =>
      ∀ id, note.mentioned = some id → id ∈ told (known ++ before)) (ids.map Note.destroy) := by
  induction ids using List.reverseRecOn with
  | nil => exact every_nil _
  | append_singleton ids id ih =>
    rw [List.nodup_append] at hnodup
    rw [List.map_append, List.map_singleton, every_snoc]
    refine ⟨ih hnodup.1 fun k hk => hknown k (List.mem_append_left _ hk), ?_⟩
    intro k hk
    obtain rfl : id = k := by simpa [Note.mentioned] using hk
    have hnot : id ∉ ids := fun hmem => hnodup.2.2 id hmem id (by simp) rfl
    rw [told_append, foldl_hear_destroy]
    simpa [hnot] using hknown id (by simp)

/-- A member that is not present is nobody's peer. -/
theorem peerIds_snoc (T : List (Member α κ ι)) {m : Member α κ ι} (hm : m.present = false)
    (id : κ) : peerIds (T ++ [m]) id = peerIds T id := by
  simp [peerIds, peers, hm]

/-- After the roster the receiver knows exactly its peers, provided it knew none but them. -/
theorem told_roster {known : List (Note κ ι)} {l : List (Member α κ ι)}
    (hsub : told known ⊆ (l.map Member.id).toFinset) :
    told (known ++ if l = [] then [] else [.roster (l.map Member.entry)]) =
      (l.map Member.id).toFinset := by
  have hids : (l.map Member.entry).map Prod.fst = l.map Member.id := by
    simp [Member.entry, Function.comp_def]
  by_cases hl : l = []
  · subst hl
    simpa using hsub
  · rw [if_neg hl, told_snoc, hear, hids]
    exact Finset.union_eq_right.2 hsub

theorem peerIds_without (T : List (Member α κ ι)) (gone id : κ) :
    peerIds (without T gone) id = (peerIds T id).erase gone := by
  ext k
  simp only [mem_peerIds, mem_without, Finset.mem_erase]
  constructor
  · rintro ⟨q, ⟨hq, hgone⟩, hp, hid, rfl⟩
    exact ⟨hgone, q, hq, hp, hid, rfl⟩
  · rintro ⟨hgone, q, hq, hp, hid, rfl⟩
    exact ⟨q, ⟨hq, hgone⟩, hp, hid, rfl⟩

end Steps

/-! ## Inboxes -/

section Inbox

variable [DecidableEq α]

/-- The notes sent to one address, in order. -/
def inbox (mail : List (α × Note κ ι)) (a : α) : List (Note κ ι) :=
  mail.filterMap fun item => if item.1 = a then some item.2 else none

@[simp] theorem inbox_nil (a : α) : inbox ([] : List (α × Note κ ι)) a = [] := rfl

@[simp] theorem inbox_append (mail more : List (α × Note κ ι)) (a : α) :
    inbox (mail ++ more) a = inbox mail a ++ inbox more a := by
  simp [inbox]

@[simp] theorem inbox_cons (item : α × Note κ ι) (mail : List (α × Note κ ι)) (a : α) :
    inbox (item :: mail) a = (if item.1 = a then [item.2] else []) ++ inbox mail a := by
  unfold inbox
  by_cases h : item.1 = a <;> simp [h]

/-- Members whose addresses do not include `a` get nothing to `a`. -/
theorem inbox_map_of_not_mem {l : List (Member α κ ι)} (note : Note κ ι) {a : α}
    (hnot : ∀ q ∈ l, q.addr ≠ a) : inbox (l.map fun q => (q.addr, note)) a = [] := by
  induction l with
  | nil => rfl
  | cons q l ih =>
    have hq : q.addr ≠ a := hnot q (by simp)
    have hl := ih fun r hr => hnot r (by simp [hr])
    simp [hq, hl]

/-- The same note to members with distinct addresses arrives once at each of them. -/
theorem inbox_map_of_mem {l : List (Member α κ ι)} (note : Note κ ι)
    (hnodup : (l.map Member.addr).Nodup) {m : Member α κ ι} (hm : m ∈ l) :
    inbox (l.map fun q => (q.addr, note)) m.addr = [note] := by
  induction l with
  | nil => simp at hm
  | cons q l ih =>
    simp only [List.map_cons, List.nodup_cons] at hnodup
    rcases List.mem_cons.1 hm with rfl | hml
    · have hrest : ∀ r ∈ l, r.addr ≠ m.addr :=
        fun r hr heq => hnodup.1 (List.mem_map.2 ⟨r, hr, heq⟩)
      simp [inbox_map_of_not_mem note hrest]
    · have hne : q.addr ≠ m.addr :=
        fun heq => hnodup.1 (List.mem_map.2 ⟨m, hml, heq.symm⟩)
      simp [hne, ih hnodup.2 hml]

/-- A property of all notes of a step, whatever was said before them. -/
theorem every_inbox_of_forall {P : List (Note κ ι) → Note κ ι → Prop}
    {out : List (α × Note κ ι)} (h : ∀ item ∈ out, ∀ before, P before item.2) (a : α) :
    Every P (inbox out a) := by
  intro before note after hsplit
  have hnote : note ∈ inbox out a := by simp [hsplit]
  rcases List.mem_filterMap.1 hnote with ⟨item, hitem, hsome⟩
  by_cases ha : item.1 = a
  · obtain rfl : item.2 = note := by simpa [ha] using hsome
    exact h item hitem before
  · simp [ha] at hsome

variable [DecidableEq κ]

/-- What a broadcast brings to a member of the table. -/
theorem WellFormed.inbox_broadcast {T : List (Member α κ ι)} (hT : WellFormed T)
    {m : Member α κ ι} (hm : m ∈ T) (id : κ) (note : Note κ ι) :
    inbox (broadcast T id note) m.addr =
      if m.present = true ∧ m.id ≠ id then [note] else [] := by
  by_cases h : m.present = true ∧ m.id ≠ id
  · rw [if_pos h]
    exact inbox_map_of_mem note (hT.filter _).addrs (mem_peers.2 ⟨hm, h⟩)
  · rw [if_neg h]
    refine inbox_map_of_not_mem note ?_
    intro q hq heq
    rcases mem_peers.1 hq with ⟨hqT, hqp⟩
    obtain rfl := hT.eq_of_addr hqT hm heq
    exact h hqp

theorem inbox_broadcast_of_not_mem {T : List (Member α κ ι)} {a : α}
    (hnot : ∀ q ∈ T, q.addr ≠ a) (id : κ) (note : Note κ ι) :
    inbox (broadcast T id note) a = [] := by
  refine inbox_map_of_not_mem note ?_
  intro q hq
  exact hnot q (mem_peers.1 hq).1

/-- What the rosters of a step bring to an address. -/
theorem inbox_rosterFor (T : List (Member α κ ι)) (m : Member α κ ι) (a : α) :
    inbox (rosterFor T m) a =
      if m.addr = a ∧ peers T m.id ≠ [] then [.roster ((peers T m.id).map Member.entry)]
      else [] := by
  unfold rosterFor
  by_cases hp : peers T m.id = [] <;> by_cases ha : m.addr = a <;> simp [hp, ha]

/-- What the farewell brings to a member: one report for each of its peers. -/
theorem WellFormed.inbox_farewell {T : List (Member α κ ι)} (hT : WellFormed T)
    {m : Member α κ ι} (hm : m ∈ T) :
    inbox (farewell T) m.addr =
      if m.present = true then (peers T m.id).map fun q => .destroy q.id else [] := by
  -- The table broadcast to stays fixed while the induction runs over those who leave.
  have hgen : ∀ l : List (Member α κ ι),
      inbox (l.flatMap fun q => broadcast T q.id (.destroy q.id)) m.addr =
        if m.present = true then
          (l.filter fun q => !decide (q.id = m.id)).map fun q => .destroy q.id
        else [] := by
    intro l
    induction l with
    | nil => simp
    | cons q l ih =>
      rw [List.flatMap_cons, inbox_append, hT.inbox_broadcast hm, ih]
      by_cases hp : m.present = true <;> by_cases hq : q.id = m.id
      · simp [hp, hq]
      · have hq' : m.id ≠ q.id := fun h => hq h.symm
        simp [hp, hq, hq']
      · simp [hp]
      · simp [hp]
  have hpeers : (T.filter fun q => q.present).filter (fun q => !decide (q.id = m.id)) =
      peers T m.id := by
    rw [peers, List.filter_filter]
    refine List.filter_congr ?_
    intro q _
    exact Bool.and_comm _ _
  rw [farewell, hgen, hpeers]

end Inbox

/-! ## Agreement -/

section Agreement

variable [DecidableEq α] [DecidableEq κ]

/-- The table agrees with the notes sent: a member that is not present has received nothing since
its assignment, and a present one has been told exactly about the other present members. -/
structure Agrees (T : List (Member α κ ι)) (mail : List (α × Note κ ι)) : Prop where
  wf : WellFormed T
  waiting : ∀ m ∈ T, m.present = false → ∃ earlier, inbox mail m.addr = earlier ++ [.assign m.id]
  informed : ∀ m ∈ T, m.present = true → told (inbox mail m.addr) = peerIds T m.id

/-- Every destroyed or relayed id is one its receiver knows at that moment. -/
def Sound (mail : List (α × Note κ ι)) : Prop :=
  ∀ a, Every (fun before note => ∀ id, note.mentioned = some id → id ∈ told before) (inbox mail a)

/-- Every announced id is one its receiver does not know at that moment. -/
def Fresh (mail : List (α × Note κ ι)) : Prop :=
  ∀ a, Every (fun before note => note.announced.Nodup ∧ ∀ id ∈ note.announced, id ∉ told before)
    (inbox mail a)

theorem agrees_nil : Agrees ([] : List (Member α κ ι)) [] where
  wf := ⟨by simp, by simp⟩
  waiting := by simp
  informed := by simp

theorem Agrees.told_waiting {T : List (Member α κ ι)} {mail : List (α × Note κ ι)}
    (h : Agrees T mail) {m : Member α κ ι} (hm : m ∈ T) (hp : m.present = false) :
    told (inbox mail m.addr) = ∅ := by
  rcases h.waiting m hm hp with ⟨earlier, hin⟩
  rw [hin, told_snoc]
  rfl

/-! ### Every step keeps the table and the notes in agreement -/

variable {T T' : List (Member α κ ι)} {mail out : List (α × Note κ ι)}

theorem Agrees.join (h : Agrees T mail) {a : α} {id : κ} {info : ι}
    (haddr : ∀ m ∈ T, m.addr ≠ a) (hid : ∀ m ∈ T, m.id ≠ id) :
    Agrees (T ++ [{ addr := a, id := id, present := false, info := info }])
      (mail ++ [(a, .assign id)]) where
  wf := h.wf.snoc haddr hid
  waiting := by
    intro m hm hp
    rcases List.mem_append.1 hm with hm | hm
    · have hne : a ≠ m.addr := fun heq => haddr m hm heq.symm
      rcases h.waiting m hm hp with ⟨earlier, hin⟩
      exact ⟨earlier, by simp [hin, hne]⟩
    · obtain rfl := List.mem_singleton.1 hm
      exact ⟨inbox mail a, by simp⟩
  informed := by
    intro m hm hp
    rcases List.mem_append.1 hm with hm | hm
    · have hne : a ≠ m.addr := fun heq => haddr m hm heq.symm
      rw [peerIds_snoc T rfl, ← h.informed m hm hp]
      simp [hne]
    · obtain rfl := List.mem_singleton.1 hm
      cases hp

/-- What an announcement brings to a member that does not make it. -/
theorem inbox_announce_other {before after : List (Member α κ ι)} {m q : Member α κ ι} (info : ι)
    (hT : WellFormed (before ++ m :: after)) (hq : q ∈ before ++ m.announce info :: after)
    (hne : q.id ≠ m.id) :
    inbox (broadcast (before ++ m.announce info :: after) m.id (.create m.id info) ++
        rosterFor (before ++ m.announce info :: after) (m.announce info)) q.addr =
      if q.present = true then [.create m.id info] else [] := by
  have hT' : WellFormed (before ++ m.announce info :: after) := hT.replace rfl rfl
  have haddr : (m.announce info).addr ≠ q.addr := by
    intro heq
    have hm : m.announce info ∈ before ++ m.announce info :: after := by simp
    obtain rfl := hT'.eq_of_addr hm hq heq
    exact hne rfl
  rw [inbox_append, hT'.inbox_broadcast hq, inbox_rosterFor]
  simp [haddr, hne]

/-- What an announcement brings to the member that makes it. -/
theorem inbox_announce_self {before after : List (Member α κ ι)} {m : Member α κ ι} (info : ι)
    (hT : WellFormed (before ++ m :: after)) :
    inbox (broadcast (before ++ m.announce info :: after) m.id (.create m.id info) ++
        rosterFor (before ++ m.announce info :: after) (m.announce info)) m.addr =
      if peers (before ++ m :: after) m.id = [] then []
      else [.roster ((peers (before ++ m :: after) m.id).map Member.entry)] := by
  have hT' : WellFormed (before ++ m.announce info :: after) := hT.replace rfl rfl
  have hm : m.announce info ∈ before ++ m.announce info :: after := by simp
  have hbroadcast := hT'.inbox_broadcast hm m.id (.create m.id info)
  have hroster := inbox_rosterFor (before ++ m.announce info :: after) (m.announce info) m.addr
  have hpeers := peers_announce before after m info
  rw [inbox_append]
  simp only [Member.announce] at hbroadcast hroster hpeers ⊢
  rw [hbroadcast, hroster, hpeers]
  by_cases hp : peers (before ++ m :: after) m.id = [] <;> simp [hp]

theorem Agrees.announce {before after : List (Member α κ ι)} {m : Member α κ ι}
    (h : Agrees (before ++ m :: after) mail) (info : ι) :
    Agrees (before ++ m.announce info :: after)
      (mail ++ (broadcast (before ++ m.announce info :: after) m.id (.create m.id info) ++
        rosterFor (before ++ m.announce info :: after) (m.announce info))) := by
  have hmem : m ∈ before ++ m :: after := by simp
  have hother : ∀ q ∈ before ++ m.announce info :: after, q.id ≠ m.id →
      q ∈ before ++ m :: after := by
    intro q hq hne
    exact mem_replace_of_ne hq fun heq => hne (by rw [heq]; rfl)
  have hself : ∀ q ∈ before ++ m.announce info :: after, q.id = m.id → q = m.announce info := by
    intro q hq heq
    exact (h.wf.replace (n := m.announce info) rfl rfl).eq_of_id hq (by simp) heq
  refine ⟨h.wf.replace rfl rfl, ?_, ?_⟩
  · intro q hq hp
    have hne : q.id ≠ m.id := by
      intro heq
      rw [hself q hq heq] at hp
      cases hp
    rcases h.waiting q (hother q hq hne) hp with ⟨earlier, hin⟩
    refine ⟨earlier, ?_⟩
    rw [inbox_append, inbox_announce_other info h.wf hq hne]
    simp [hin, hp]
  · intro q hq hp
    by_cases heq : q.id = m.id
    · -- The announcer: it knew nobody if it was waiting and exactly its peers otherwise.
      obtain rfl := hself q hq heq
      have hknown : told (inbox mail m.addr) ⊆ peerIds (before ++ m :: after) m.id := by
        cases hm : m.present with
        | false => simp [h.told_waiting hmem hm]
        | true => exact (h.informed m hmem hm).subset
      show told (inbox _ m.addr) = peerIds _ m.id
      rw [inbox_append, inbox_announce_self info h.wf, told_roster hknown, peerIds,
        peers_announce]
    · rw [inbox_append, inbox_announce_other info h.wf hq heq, if_pos hp, told_snoc,
        h.informed q (hother q hq heq) hp, peerIds_announce before after m info (Ne.symm heq)]
      rfl

theorem Agrees.relay (h : Agrees T mail) (id : κ) :
    Agrees T (mail ++ broadcast T id (.relay id)) where
  wf := h.wf
  waiting := by
    intro m hm hp
    rcases h.waiting m hm hp with ⟨earlier, hin⟩
    refine ⟨earlier, ?_⟩
    rw [inbox_append, h.wf.inbox_broadcast hm]
    simp [hin, hp]
  informed := by
    intro m hm hp
    rw [inbox_append, h.wf.inbox_broadcast hm, ← h.informed m hm hp]
    by_cases hid : m.id = id <;> simp [hid, hp, told_snoc, hear]

theorem Agrees.leave (h : Agrees T mail) {m : Member α κ ι} (hm : m ∈ T) :
    Agrees (without T m.id)
      (mail ++ if m.present then broadcast (without T m.id) m.id (.destroy m.id) else []) := by
  have hT' : WellFormed (without T m.id) := h.wf.filter _
  refine ⟨hT', ?_, ?_⟩
  · intro q hq hp
    rcases h.waiting q (mem_without.1 hq).1 hp with ⟨earlier, hin⟩
    refine ⟨earlier, ?_⟩
    cases hmp : m.present with
    | false => simp [hin]
    | true =>
      rw [if_pos rfl, inbox_append, hT'.inbox_broadcast hq]
      simp [hin, hp]
  · intro q hq hp
    rcases mem_without.1 hq with ⟨hqT, hne⟩
    rw [peerIds_without, ← h.informed q hqT hp]
    cases hmp : m.present with
    | false =>
      -- A member that was not present is unknown to the others, so nothing has to be said.
      have hunknown : m.id ∉ told (inbox mail q.addr) := by
        rw [h.informed q hqT hp, mem_peerIds]
        rintro ⟨r, hr, hrp, _, hrid⟩
        obtain rfl := h.wf.eq_of_id hr hm hrid
        simp [hmp] at hrp
      simp [Finset.erase_eq_of_notMem hunknown]
    | true =>
      rw [if_pos rfl, inbox_append, hT'.inbox_broadcast hq, if_pos ⟨hp, hne⟩, told_snoc]
      rfl

/-- Every step keeps the table and the notes in agreement. -/
theorem Agrees.step (h : Agrees T mail) {act : Act α κ ι} (hstep : Step T act out T') :
    Agrees T' (mail ++ out) := by
  cases hstep with
  | idle => simpa using h
  | join T a id info haddr hid => exact h.join haddr hid
  | announce before after m info => exact h.announce info
  | relay T m _ _ => exact h.relay m.id
  | leave T m hm => exact h.leave hm
  | close T =>
    exact ⟨⟨by simp, by simp⟩, by simp, by simp⟩

/-! ### What the notes say at the moment they are sent -/

theorem inbox_farewell_of_not_mem {a : α} (hnot : ∀ m ∈ T, m.addr ≠ a) :
    inbox (farewell T) a = [] := by
  simp only [inbox, farewell, List.filterMap_eq_nil_iff]
  intro item hitem
  rcases List.mem_flatMap.1 hitem with ⟨m, _, hbroadcast⟩
  rcases (mem_broadcast hbroadcast).2 with ⟨q, hq, haddr⟩
  have hne : item.1 ≠ a := haddr ▸ hnot q (mem_peers.1 hq).1
  simp [hne]

/-- A step only mentions ids their receivers know. -/
theorem Sound.step (hS : Sound mail) (h : Agrees T mail) {act : Act α κ ι}
    (hstep : Step T act out T') : Sound (mail ++ out) := by
  intro a
  rw [inbox_append, every_append]
  refine ⟨hS a, ?_⟩
  cases hstep with
  | idle => exact every_nil _
  | join T a' id info _ _ =>
    refine every_inbox_of_forall ?_ a
    intro item hitem before k hk
    obtain rfl := List.mem_singleton.1 hitem
    simp [Note.mentioned] at hk
  | announce before after m info =>
    refine every_inbox_of_forall ?_ a
    intro item hitem _ k hk
    -- Neither a creation nor a roster mentions an id that has to be known.
    rw [mentioned_announce (m := m.announce info) hitem] at hk
    cases hk
  | relay T m hm hp =>
    by_cases ha : ∃ q ∈ T, q.addr = a
    · rcases ha with ⟨q, hq, rfl⟩
      rw [h.wf.inbox_broadcast hq]
      split
      · rename_i hq'
        rw [every_singleton, List.append_nil, h.informed q hq hq'.1]
        intro k hk
        -- The receiver is a present peer of the mover, so it knows the mover.
        obtain rfl : m.id = k := by simpa [Note.mentioned] using hk
        exact mem_peerIds.2 ⟨m, hm, hp, hq'.2.symm, rfl⟩
      · exact every_nil _
    · have hnot : ∀ q ∈ T, q.addr ≠ a := fun q hq heq => ha ⟨q, hq, heq⟩
      rw [inbox_broadcast_of_not_mem hnot]
      exact every_nil _
  | leave T m hm =>
    cases hp : m.present with
    | false => exact every_nil _
    | true =>
      rw [if_pos rfl]
      by_cases ha : ∃ q ∈ without T m.id, q.addr = a
      · rcases ha with ⟨q, hq, rfl⟩
        have hT' : WellFormed (without T m.id) := h.wf.filter _
        rcases mem_without.1 hq with ⟨hqT, hne⟩
        rw [hT'.inbox_broadcast hq]
        split
        · rename_i hq'
          rw [every_singleton, List.append_nil, h.informed q hqT hq'.1]
          intro k hk
          obtain rfl : m.id = k := by simpa [Note.mentioned] using hk
          exact mem_peerIds.2 ⟨m, hm, hp, hne.symm, rfl⟩
        · exact every_nil _
      · have hnot : ∀ q ∈ without T m.id, q.addr ≠ a := fun q hq heq => ha ⟨q, hq, heq⟩
        rw [inbox_broadcast_of_not_mem hnot]
        exact every_nil _
  -- The farewell removes one peer after the other, each of them once.
  | close T =>
    by_cases ha : ∃ q ∈ T, q.addr = a
    · rcases ha with ⟨q, hq, rfl⟩
      rw [h.wf.inbox_farewell hq]
      split
      · rename_i hp
        have hmap : (peers T q.id).map (fun r => (Note.destroy r.id : Note κ ι)) =
            ((peers T q.id).map Member.id).map Note.destroy := by simp
        rw [hmap]
        refine every_destroy (h.wf.filter _).ids ?_
        intro k hk
        rw [h.informed q hq hp]
        simpa [peerIds] using hk
      · exact every_nil _
    · have hnot : ∀ q ∈ T, q.addr ≠ a := fun q hq heq => ha ⟨q, hq, heq⟩
      rw [inbox_farewell_of_not_mem hnot]
      exact every_nil _

/-- After a shutdown nobody knows anybody. -/
theorem Agrees.told_farewell (h : Agrees T mail) {m : Member α κ ι} (hm : m ∈ T)
    (hp : m.present = true) : told (inbox (mail ++ farewell T) m.addr) = ∅ := by
  have hmap : (peers T m.id).map (fun q => (Note.destroy q.id : Note κ ι)) =
      ((peers T m.id).map Member.id).map Note.destroy := by simp
  rw [inbox_append, h.wf.inbox_farewell hm, if_pos hp, told_append, hmap, foldl_hear_destroy,
    h.informed m hm hp]
  exact Finset.sdiff_self _

/-- The members an announcement reaches did not know the announced id, unless it is a repetition. -/
theorem Agrees.fresh_announce {before after : List (Member α κ ι)} {m : Member α κ ι}
    (h : Agrees (before ++ m :: after) mail) (info : ι)
    (hfirst : m.present = true → peers (before ++ m :: after) m.id = []) (a : α) :
    Every (fun seen note => note.announced.Nodup ∧
        ∀ id ∈ note.announced, id ∉ told (inbox mail a ++ seen))
      (inbox (broadcast (before ++ m.announce info :: after) m.id (.create m.id info) ++
        rosterFor (before ++ m.announce info :: after) (m.announce info)) a) := by
  have hmem : m ∈ before ++ m :: after := by simp
  have hT' : WellFormed (before ++ m.announce info :: after) := h.wf.replace rfl rfl
  by_cases ha : ∃ q ∈ before ++ m.announce info :: after, q.addr = a
  · rcases ha with ⟨q, hq, rfl⟩
    by_cases hid : q.id = m.id
    · -- The announcer gets a roster; it is waiting, or the roster is empty and not sent.
      obtain rfl := hT'.eq_of_id hq (show m.announce info ∈ _ by simp) hid
      show Every _ (inbox _ m.addr)
      rw [inbox_announce_self info h.wf]
      split
      · exact every_nil _
      · rename_i hpeers
        have hp : m.present = false := by
          cases hmp : m.present with
          | false => rfl
          | true => exact absurd (hfirst hmp) hpeers
        have hids : ((peers (before ++ m :: after) m.id).map Member.entry).map Prod.fst =
            (peers (before ++ m :: after) m.id).map Member.id := by
          simp [Member.entry, Function.comp_def]
        rw [every_singleton]
        refine ⟨?_, ?_⟩
        · rw [Note.announced, hids]
          exact (h.wf.filter _).ids
        · intro k _
          show k ∉ told (inbox mail m.addr ++ [])
          rw [List.append_nil, h.told_waiting hmem hp]
          exact Finset.notMem_empty k
    · rw [inbox_announce_other info h.wf hq hid]
      split
      · rename_i hp
        have hqT : q ∈ before ++ m :: after :=
          mem_replace_of_ne hq fun heq => hid (by rw [heq]; rfl)
        rw [every_singleton, List.append_nil, h.informed q hqT hp]
        refine ⟨by simp [Note.announced], ?_⟩
        intro k hk hknown
        obtain rfl : k = m.id := by simpa [Note.announced] using hk
        rcases mem_peerIds.1 hknown with ⟨r, hr, hrp, _, hrid⟩
        obtain rfl := h.wf.eq_of_id hr hmem hrid
        have hpeer : q ∈ peers (before ++ r :: after) r.id := mem_peers.2 ⟨hqT, hp, hid⟩
        simp [hfirst hrp] at hpeer
      · exact every_nil _
  · have hnot : ∀ q ∈ before ++ m.announce info :: after, q.addr ≠ a :=
      fun q hq heq => ha ⟨q, hq, heq⟩
    have hself : (m.announce info).addr ≠ a := hnot _ (by simp)
    rw [inbox_append, inbox_broadcast_of_not_mem hnot, inbox_rosterFor]
    simpa [hself] using every_nil _

/-- A repeated announcement tells somebody about a member it knows. -/
theorem Agrees.not_fresh_announce {before after : List (Member α κ ι)} {m : Member α κ ι}
    (h : Agrees (before ++ m :: after) mail) (info : ι) (hp : m.present = true)
    (hpeers : peers (before ++ m :: after) m.id ≠ []) :
    ¬ Fresh (mail ++ (broadcast (before ++ m.announce info :: after) m.id (.create m.id info) ++
      rosterFor (before ++ m.announce info :: after) (m.announce info))) := by
  intro hfresh
  rcases List.exists_mem_of_ne_nil _ hpeers with ⟨q, hq⟩
  rcases mem_peers.1 hq with ⟨hqT, hqp, hne⟩
  have hq' : q ∈ before ++ m.announce info :: after :=
    mem_replace_of_ne hqT fun heq => hne (by rw [heq])
  have hat := hfresh q.addr
  rw [inbox_append, inbox_announce_other info h.wf hq' hne, if_pos hqp, every_snoc] at hat
  refine hat.2.2 m.id (by simp [Note.announced]) ?_
  rw [h.informed q hqT hqp]
  exact mem_peerIds.2 ⟨m, by simp, hp, hne.symm, rfl⟩

/-- Exactly the repeated announcements announce somebody to a receiver that knows it. -/
theorem Agrees.fresh_step (h : Agrees T mail) {act : Act α κ ι} (hstep : Step T act out T') :
    Fresh (mail ++ out) ↔ Fresh mail ∧ ¬ Repeats T act := by
  have hearlier : Fresh (mail ++ out) → Fresh mail := by
    intro hfresh a
    have hat := hfresh a
    rw [inbox_append, every_append] at hat
    exact hat.1
  -- Only an announcement announces.
  have hsilent : (∀ item ∈ out, item.2.announced = []) → Fresh mail → Fresh (mail ++ out) := by
    intro hnone hfresh a
    rw [inbox_append, every_append]
    refine ⟨hfresh a, every_inbox_of_forall ?_ a⟩
    intro item hitem before
    simp [hnone item hitem]
  cases hstep with
  | idle => simp [Repeats]
  | join T a id info _ _ =>
    refine ⟨fun hf => ⟨hearlier hf, not_false⟩, fun hf => hsilent ?_ hf.1⟩
    intro item hitem
    obtain rfl := List.mem_singleton.1 hitem
    rfl
  | announce before after m info =>
    constructor
    · intro hf
      refine ⟨hearlier hf, ?_⟩
      rintro ⟨⟨q, hq, hid, hp⟩, hpeers⟩
      obtain rfl := h.wf.eq_of_id hq (by simp) hid
      exact h.not_fresh_announce info hp hpeers hf
    · rintro ⟨hf, hnot⟩ a
      rw [inbox_append, every_append]
      refine ⟨hf a, h.fresh_announce info ?_ a⟩
      intro hp
      by_contra hpeers
      exact hnot ⟨⟨m, by simp, rfl, hp⟩, hpeers⟩
  | relay T m _ _ =>
    refine ⟨fun hf => ⟨hearlier hf, not_false⟩, fun hf => hsilent ?_ hf.1⟩
    intro item hitem
    rw [(mem_broadcast hitem).1]
    rfl
  | leave T m _ =>
    refine ⟨fun hf => ⟨hearlier hf, not_false⟩, fun hf => hsilent ?_ hf.1⟩
    intro item hitem
    cases hp : m.present with
    | false => simp [hp] at hitem
    | true =>
      rw [if_pos hp] at hitem
      rw [(mem_broadcast hitem).1]
      rfl
  | close T =>
    refine ⟨fun hf => ⟨hearlier hf, not_false⟩, fun hf => hsilent ?_ hf.1⟩
    intro item hitem
    rcases List.mem_flatMap.1 hitem with ⟨m, _, hbroadcast⟩
    rw [(mem_broadcast hbroadcast).1]
    rfl

end Agreement

end Lobby
end Crossover
