import Crossover.System.Joining

/-!
# Leaving — the way out of the world

The network library tells the server of a connection that is gone, and the server tells the others.
Nobody else has a part in it: when a client has handled what is on its way to it, it shows those who
are left.
-/

namespace Crossover

open Wire

/-! ## The server's part -/

namespace Server

section Drops

variable {s : RelayServer} {p : Player} {packet : Packet} {tickMs : Int}

/-- The notification that the guard lets through takes out one record. -/
theorem players_drop (hinv : TableInv s) (hdrop : IsDrop packet)
    (hfind : findByAddress s.players packet.systemAddress = some p)
    (hadmits : RateAdmits p tickMs) (handlerMs : Int) :
    (s.tickPacket packet tickMs handlerMs).1.players =
      othersOf packet.systemAddress s.players := by
  have hothers := (isolates_tickPacket hinv packet tickMs handlerMs).others
  have hgone : ∀ q ∈ (s.tickPacket packet tickMs handlerMs).1.players, q.address ≠ p.address :=
    (tornDown_of_admitted hinv hdrop hfind hadmits).gone
  rw [findByAddress_address hfind] at hgone
  rw [← hothers, othersOf, eq_comm, List.filter_eq_self]
  intro q hq
  simpa using hgone q hq

end Drops

end Server

namespace World

open Relation Server Crossover.Mod

variable {σ : Type}

/-! ## The notification is calm -/

theorem transport_of_drop {packet : Packet} (h : IsDrop packet) : Transport packet := by
  rcases h with hkind | hkind <;> simp [Transport, hkind]

theorem not_reannounces_of_drop {s : RelayServer} {packet : Packet} {tickMs handlerMs : Int}
    (h : IsDrop packet) : ¬ Reannounces s (.packet packet tickMs handlerMs) := by
  rintro ⟨hcreate, _⟩
  rcases h with hkind | hkind <;> rw [hkind] at hcreate <;> cases hcreate

section Leaves

variable {E : SystemAddress → Engine σ} {isClient : SystemAddress → Prop}
  {Holds : σ → Int → Int32 → Prop} {config : Config} {a : SystemAddress} {w : World σ}

/-- Somebody else's connection is gone. -/
theorem Linked.loses (h : Linked Holds config a w) {p : Player} (hp : p ∈ w.server.players)
    (hother : p.address ≠ a) {packet : Packet} (hfrom : packet.systemAddress = p.address)
    (hdrop : IsDrop packet) {tickMs : Int} (hadmits : RateAdmits p tickMs) (handlerMs : Int) :
    let w' := w.handled (.packet packet tickMs handlerMs)
    CalmStep E isClient Holds a w w' ∧
      w'.server.players = othersOf p.address w.server.players := by
  intro w'
  have hinv := h.channel.roster.inv.table
  have hfind : findByAddress w.server.players packet.systemAddress = some p :=
    hfrom ▸ findByAddress_of_mem hinv.addrs hp
  have hstep : Server.step w.server (.packet packet tickMs handlerMs) =
      w.server.tickPacket packet tickMs handlerMs := by simp [Server.step, h.peer]
  have hplayers : w'.server.players = othersOf p.address w.server.players := by
    simp only [w', handled, hstep]
    rw [players_drop hinv hdrop hfind hadmits, hfrom]
  refine ⟨⟨.server (.packet packet tickMs handlerMs), ⟨fun _ => Or.inl (transport_of_drop hdrop),
    rfl⟩, ?_, not_reannounces_of_drop hdrop, ?_⟩, hplayers⟩
  · intro writable heq
    cases heq
  · -- It is not this client's player that goes.
    rintro ⟨q, hq, ha⟩
    refine ⟨q, ?_, ha⟩
    rw [show (Server.step w.server (.packet packet tickMs handlerMs)).1.players =
      othersOf p.address w.server.players from hplayers]
    exact List.mem_filter.2 ⟨hq, by simp [ha, Ne.symm hother]⟩

/-- A client to which nothing is on its way shows nobody whose id the server does not know. -/
theorem Linked.shows_known (hE : (E a).Lawful Holds) (h : Linked Holds config a w)
    (hflight : w.inFlight a = []) {s : Session σ} (hs : w.clients a = some s) {k : Int32}
    (hk : k ∉ w.server.players.map Player.networkId) : ∀ q ∈ s.netPlayers, q.networkId ≠ k := by
  rintro q hq rfl
  by_cases hseated : Seated w.server a
  · rcases hseated with ⟨self, hself, ha⟩
    rcases h.shows hE hflight hself ha hs with ⟨-, hspawned, hunspawned⟩
    cases hpresent : self.spawned with
    | false =>
      rw [hunspawned hpresent] at hq
      cases hq
    | true =>
      have hentry := (hspawned hpresent).mem_iff.1 (List.mem_map_of_mem hq)
      rcases List.mem_map.1 hentry with ⟨p, hp, heq⟩
      have hid : p.networkId = q.networkId := congrArg Prod.fst heq
      exact hk (hid ▸ List.mem_map_of_mem (List.mem_of_mem_filter hp))
  · rw [(h.waiting hseated hs).2.netPlayers] at hq
    cases hq

end Leaves

/-- Whoever loses its connection is gone for everybody, whatever has happened so far: handling the
notification, if the flood guard lets it through, is a calm step that leaves the others' records,
and a client that was not disturbed can handle all that is on its way to it then; after that it
shows nobody with the id of the one that left, and if it has spawned, exactly the spawned players
that are left. -/
theorem gets_out (E : SystemAddress → Engine σ) (isClient : SystemAddress → Prop)
    (config : Config) (nowMs : Int) (restored : Option Vec3) (Holds : σ → Int → Int32 → Prop)
    (a : SystemAddress) (hE : (E a).Lawful Holds) (hdisplays : (E a).Displays Holds) (w : World σ)
    (h : ReflTransGen (CalmStep E isClient Holds a) (begun config nowMs restored) w)
    (s : Session σ) (hs : w.clients a = some s) (p : Player) (hp : p ∈ w.server.players)
    (hother : p.address ≠ a) (packet : Packet) (hfrom : packet.systemAddress = p.address)
    (hdrop : IsDrop packet) (tickMs handlerMs : Int) (hadmits : RateAdmits p tickMs) :
    let left := othersOf p.address w.server.players
    let w₁ := w.handled (.packet packet tickMs handlerMs)
    CalmStep E isClient Holds a w w₁ ∧ w₁.server.players = left ∧
      ∃ w' s', ReflTransGen (CalmStep E isClient Holds a) w₁ w' ∧ Elsewhere a w₁ w' ∧
        w'.server = w₁.server ∧ w'.clients a = some s' ∧ w'.inFlight a = [] ∧
        (∀ q ∈ s'.netPlayers, q.networkId ≠ p.networkId) ∧
        ∀ self ∈ left, self.address = a → self.spawned = true →
          (s'.definitionTable (E a)).Perm ((recipients left self.networkId).map fun q =>
            (q.networkId, some q.defGlobalIndex)) := by
  intro left w₁
  have hlinked := linked hE hdisplays h
  have hinv := hlinked.channel.roster.inv.table
  have hlost : CalmStep E isClient Holds a w w₁ ∧ w₁.server.players = left :=
    hlinked.loses hp hother hfrom hdrop hadmits handlerMs
  rcases hlost with ⟨hloses, hplayers⟩
  rcases (hlinked.step hE hdisplays hloses).settle hE hdisplays hs with ⟨s', hsettles⟩
  have hrun := (ReflTransGen.single hloses).trans hsettles
  have hafter := linked hE hdisplays (h.trans hrun)
  refine ⟨hloses, hplayers, _, s', hsettles, elsewhere_update a w₁ s' [], rfl,
    Function.update_self .., Function.update_self .., ?_, ?_⟩
  · refine hafter.shows_known hE (Function.update_self ..) (Function.update_self ..) ?_
    intro hmem
    rcases List.mem_map.1 hmem with ⟨q, hq, hid⟩
    rcases List.mem_filter.1 (hplayers ▸ hq) with ⟨hold, hnot⟩
    rw [hinv.eq_of_networkId hold hp hid] at hnot
    simp at hnot
  · intro self hself ha hspawned
    have hshows := hafter.shows hE (Function.update_self ..) (hplayers ▸ hself) ha
      (Function.update_self ..)
    have htable := hshows.2.1 hspawned
    simp only [hplayers] at htable
    exact htable

/-- The hero's game shows the stranger, and the stranger's connection is closed. -/
theorem gets_out_stranger : ∃ w w' : World Engine.Table, ∃ s',
    let w₁ := w.handled (.packet (strangerPacket 22 []) 0 0)
    HeroRun w ∧ Seated w.server strangerAddress ∧ w₁.server.players = [heroRecord] ∧
      ReflTransGen (CalmStep (fun _ => heroEngine) (fun b => b = heroAddress) Engine.Table.Holds
        heroAddress) w₁ w' ∧
      w'.clients heroAddress = some s' ∧ ∀ q ∈ s'.netPlayers, q.networkId ≠ 2 := by
  rcases heroAccompanied_run with ⟨w, hrun, hs, _, hplayers⟩
  have hstranger : strangerRecord ∈ w.server.players := by simp [hplayers]
  rcases gets_out (fun _ => heroEngine) (fun b => b = heroAddress) {} 0 none Engine.Table.Holds
    heroAddress (Engine.table_lawful _) (Engine.table_displays _) w hrun heroAccompanied hs
    strangerRecord hstranger (by decide) (strangerPacket 22 []) rfl (by decide) 0 0 (by decide) with
    ⟨_, hleft, w', s', hsettles, _, _, hs', _, hshows, _⟩
  refine ⟨w, w', s', hrun, ⟨_, hstranger, rfl⟩, ?_, hsettles, hs', hshows⟩
  rw [hleft, hplayers]
  decide

end World
end Crossover
