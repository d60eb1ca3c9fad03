import Crossover.Lib.Audience

/-!
# Addressee — one address among the members of a lobby

`Audience` follows everybody's mail at once and asks that nobody comes back to an address.  Here it
is one address that matters: what it hears as long as its member stays, whoever else comes and goes
(`GreetedAt`).  Announcements may repeat themselves as long as nobody is there to hear it.
-/

namespace Crossover
namespace Lobby
namespace Audience

universe u v w

variable {α : Type u} {κ : Type v} {ι : Type w} [DecidableEq α] [DecidableEq κ]
  {T T' : List (Member α κ ι)} {mail out : List (α × Note κ ι)} {act : Act α κ ι} {a : α}

/-! ## Announcements that nobody hears -/

/-- A present member without peers announces itself once more. -/
def Alone (T : List (Member α κ ι)) (act : Act α κ ι) : Prop :=
  ∃ m ∈ T, ∃ info, act = .announce m.id info ∧ m.present = true ∧ peers T m.id = []

omit [DecidableEq α] in
theorem present_of_alone {m q : Member α κ ι} (halone : peers T m.id = []) (hq : q ∈ T)
    (hne : q.id ≠ m.id) : q.present = false := by
  by_contra hp
  have hmem : q ∈ peers T m.id := mem_peers.2 ⟨hq, by simpa using hp, hne⟩
  rw [halone] at hmem
  cases hmem

theorem heard_of_alone (hT : WellFormed T) (h : Step T act out T') (halone : Alone T act) (a : α) :
    heard out a = [] := by
  rcases halone with ⟨m, hm, info, rfl, _, hpeers⟩
  by_cases hmember : ∃ q ∈ T, q.addr = a
  · rcases hmember with ⟨q, hq, rfl⟩
    generalize hact : Act.announce m.id info = act at h
    cases h with
    | announce before after n info' =>
      injection hact with hid _
      obtain rfl := hT.eq_of_id hm (by simp) hid
      by_cases hself : q.id = m.id
      · obtain rfl := hT.eq_of_id hq hm hself
        rw [heard, inbox_announce_self info' hT, if_pos hpeers]
        rfl
      · have hq' : q ∈ before ++ m.announce info' :: after :=
          mem_replace_of_ne hq fun heq => hself (by rw [heq])
        have hp := present_of_alone hpeers hq hself
        rw [heard, inbox_announce_other info' hT hq' hself, hp]
        rfl
    | _ => cases hact
  · have hopen : (Act.announce m.id info : Act α κ ι) ≠ .close := by simp
    rw [heard_of_stranger h hopen fun q hq heq => hmember ⟨q, hq, heq⟩]
    rfl

/-- A step that repeats nothing says what an audience is owed, or nobody is there. -/
theorem serves_or_alone (hT : WellFormed T) (h : Step T act out T') (hfresh : ¬ Repeats T act)
    (hopen : act ≠ .close) : presentOnly.Serves T out act ∨ Alone T act := by
  by_cases honce : ∀ id info, act = .announce id info → ∀ m ∈ T, m.id = id → m.present = false
  · exact Or.inl (serves_of_step hT h honce hopen)
  · simp only [not_forall] at honce
    rcases honce with ⟨id, info, rfl, m, hm, rfl, hp⟩
    right
    have hpresent : m.present = true := by simpa using hp
    refine ⟨m, hm, info, rfl, hpresent, ?_⟩
    by_contra hpeers
    exact hfresh ⟨⟨m, hm, rfl, hpresent⟩, hpeers⟩

theorem Informed.alone (h : presentOnly.Informed T mail) (halone : Alone T act)
    (hsilent : ∀ a, heard out a = []) : presentOnly.Informed (apply T act) (mail ++ out) := by
  rcases halone with ⟨m, hm, info, rfl, hpresent, hpeers⟩
  refine ⟨h.wf.announce m.id info, fun _ _ hfalse => hfalse, ?_⟩
  intro q hq
  rw [heard_append, hsilent, List.append_nil]
  rcases mem_announce.1 hq with ⟨hold, hne⟩ | ⟨n, hn, hid, rfl⟩
  · exact (h.knows q hold).of_deaf (present_of_alone hpeers hold hne) _
  · obtain rfl := h.wf.eq_of_id hn hm hid
    have hknows := h.knows n hn
    -- What it holds are its peers, and it has none.
    have hnobody : ∀ q ∈ T, q.present = true → q.id = n.id := by
      intro q hq hp
      by_contra hne
      rw [present_of_alone hpeers hq hne] at hp
      cases hp
    have htable : (Listener.after (heard mail n.addr)).table = [] := by
      rw [List.eq_nil_iff_forall_not_mem]
      intro e he
      rcases hknows.sound e he with hfalse | ⟨q, hq, hp, rfl⟩
      · exact hfalse
      · exact hknows.distinct.notOwn n.id hknows.own (hnobody q hq hp ▸ Knows.mem_ids he)
    refine ⟨hknows.own, hknows.distinct, ?_, ?_, fun _ => htable⟩
    · intro e he
      change e ∈ (Listener.after (heard mail n.addr)).table at he
      rw [htable] at he
      cases he
    · intro _ q hq hp hne
      rcases mem_announce.1 hq with ⟨hold, _⟩ | ⟨n', hn', hid', rfl⟩
      · exact absurd (hnobody q hold hp) hne
      · exact absurd hid' hne

/-- What the members hold stays right in a lobby where nobody repeats itself to others. -/
theorem Informed.of_step (h : presentOnly.Informed T mail) (hstep : Step T act out T')
    (hfresh : ¬ Repeats T act) (hopen : act ≠ .close) :
    presentOnly.Informed T' (mail ++ out) := by
  rw [hstep.eq_apply h.wf]
  rcases serves_or_alone h.wf hstep hfresh hopen with hserves | halone
  · exact h.step hserves
  · exact h.alone halone (heard_of_alone h.wf hstep halone)

/-! ## One address -/

/-- The member at this address has been assigned its id first, and since then neither another one
nor its own departure; while there is no member, nothing has been said. -/
structure GreetedAt (T : List (Member α κ ι)) (mail : List (α × Note κ ι)) (a : α) : Prop where
  silent : (∀ m ∈ T, m.addr ≠ a) → heard mail a = []
  first : ∀ m ∈ T, m.addr = a → ∃ rest, heard mail a = .assign m.id :: rest ∧
    (∀ k, .assign k ∉ rest) ∧ .destroy m.id ∉ rest

namespace GreetedAt

omit [DecidableEq κ] in
theorem nil (a : α) : GreetedAt ([] : List (Member α κ ι)) [] a := by
  refine ⟨fun _ => rfl, ?_⟩
  intro m hm
  cases hm

omit [DecidableEq κ] in
/-- Seen from its address, the member is the only one. -/
theorem greeted (h : GreetedAt T mail a) {m : Member α κ ι} (hm : m ∈ T) (ha : m.addr = a) :
    Greeted [m] mail (m.addr :: mail.map Prod.fst) := by
  refine ⟨?_, ?_, ?_⟩
  · intro q hq
    rw [List.mem_singleton.1 hq]
    exact List.mem_cons_self
  · intro b hb
    apply heard_of_inbox
    rw [List.eq_nil_iff_forall_not_mem]
    intro note hnote
    exact hb (List.mem_cons_of_mem _ (List.mem_map_of_mem (f := Prod.fst) (mem_inbox.1 hnote)))
  · intro q hq
    rw [List.mem_singleton.1 hq, ha]
    exact h.first m hm ha

/-- A member is neither assigned anything nor told of its own departure. -/
theorem said_to_member (hT : WellFormed T) (hstep : Step T act out T') (hfresh : ¬ Repeats T act)
    (hopen : act ≠ .close) {m : Member α κ ι} (hm : m ∈ T) :
    (∀ k, .assign k ∉ heard out m.addr) ∧ .destroy m.id ∉ heard out m.addr := by
  rcases serves_or_alone hT hstep hfresh hopen with hserves | halone
  · exact hserves.to_member hT hm
  · rw [heard_of_alone hT hstep halone]
    exact ⟨fun k => List.not_mem_nil, List.not_mem_nil⟩

/-- A step keeps this as long as the address keeps its member. -/
theorem step (h : GreetedAt T mail a) (hT : WellFormed T) (hstep : Step T act out T')
    (hfresh : ¬ Repeats T act) (hopen : act ≠ .close)
    (hstays : (∃ m ∈ T, m.addr = a) → ∃ m ∈ T', m.addr = a) :
    GreetedAt T' (mail ++ out) a := by
  by_cases hmember : ∃ m ∈ T, m.addr = a
  · refine ⟨fun hnone => absurd (hstays hmember) (by simpa using hnone), ?_⟩
    intro m' hm' ha'
    rcases hmember with ⟨m, hm, ha⟩
    -- Nobody joins where somebody is.
    have hsame : m'.id = m.id := by
      rcases mem_apply (hstep.eq_apply hT ▸ hm') with ⟨q, hq, haddr, hid⟩ | ⟨info, rfl⟩
      · rw [← hid, hT.eq_of_addr hq hm (haddr.trans (ha'.trans ha.symm))]
      · cases hstep with
        | join _ _ _ _ hfree _ => exact absurd (ha.trans ha'.symm) (hfree m hm)
    rcases h.first m hm ha with ⟨rest, hheard, hassign, hdestroy⟩
    have hnow := said_to_member hT hstep hfresh hopen hm
    rw [ha] at hnow
    refine ⟨rest ++ heard out a, ?_, ?_, ?_⟩
    · rw [heard_append, hheard, hsame, List.cons_append]
    · intro k hk
      exact (List.mem_append.1 hk).elim (hassign k) (hnow.1 k)
    · rw [hsame]
      intro hk
      exact (List.mem_append.1 hk).elim hdestroy hnow.2
  · have hnobody : ∀ m ∈ T, m.addr ≠ a := fun m hm ha => hmember ⟨m, hm, ha⟩
    have hheard : heard (mail ++ out) a = greeting act a := by
      rw [heard_append, h.silent hnobody, heard_of_stranger hstep hopen hnobody, List.nil_append]
    constructor
    · intro hnone
      rw [hheard]
      cases hstep with
      | join _ b id info _ _ =>
        exact if_neg (hnone _ (List.mem_append_right _ (List.mem_singleton_self _)))
      | close => exact absurd rfl hopen
      | _ => rfl
    · intro m' hm' ha'
      rcases mem_apply (hstep.eq_apply hT ▸ hm') with ⟨q, hq, haddr, _⟩ | ⟨info, rfl⟩
      · exact absurd (haddr.trans ha') (hnobody q hq)
      · refine ⟨[], ?_, by simp, by simp⟩
        rw [hheard]
        exact if_pos ha'

end GreetedAt

end Audience
end Lobby
end Crossover
