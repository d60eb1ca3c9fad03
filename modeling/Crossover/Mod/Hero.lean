import Crossover.Mod.Emptying
import Crossover.Mod.Recording

/-!
# Hero — what an inbound id can do to the local player

`DestroyNetPlayer` looks its id up among all players, the local one first, and takes the player it
finds out of the game before it looks for an entry to erase.  The id comes from a message of any
peer, or from the address of a lost connection.
-/

namespace Crossover
namespace Mod

open Wire

namespace Session

variable {σ : Type}

/-- The id with which an inbound message or a lost connection has `DestroyNetPlayer` called. -/
inductive Delivers (E : Engine σ) (s : Session σ) : SessionEvent σ → Int32 → Prop
  | message {packet : Packet} {rounds : Nat} :
      s.network.active = true → packet.kind = .destroyNetPlayer →
      Delivers E s (.packet packet rounds) ((payload packet).read (-1 : Int32)).1
  | loss {packet : Packet} {rounds : Nat} :
      s.network.active = true →
      packet.kind = .disconnectionNotification ∨ packet.kind = .connectionLost →
      Delivers E s (.packet packet rounds) (s.getNetworkIdFromAddress E packet.systemAddress)

/-- The step begins with that call. -/
theorem Delivers.step_eq {E : Engine σ} {s : Session σ} {event : SessionEvent σ} {networkId : Int32}
    (h : Delivers E s event networkId) :
    ∃ rest : Session σ → Except Fault (Session σ), s.step E event =
      match s.destroyNetPlayer E networkId with
      | .error fault => .error fault
      | .ok s' => rest s' := by
  cases h with
  -- A message is followed by nothing else.
  | message hactive hkind =>
    refine ⟨fun s' => .ok s', ?_⟩
    simp only [step, update, hactive, hkind, Bool.not_true, Bool.false_eq_true, if_false,
      handleDestroyNetPlayer]
    split <;> simp_all
  -- A lost connection is erased as well, and a client may have lost its host.
  | @loss packet rounds hactive hkind =>
    refine ⟨fun s' =>
      let networkId := s.getNetworkIdFromAddress E packet.systemAddress
      let connections :=
        s'.network.connections.eraseP fun connection => connection.networkId == networkId
      let s' := { s' with network := { s'.network with connections := connections } }
      if s'.network.quitCallbacks && networkId == 0 then s'.disconnect E rounds else .ok s', ?_⟩
    rcases hkind with hkind | hkind
    · simp only [step, update, hactive, hkind, Bool.not_true, Bool.false_eq_true, if_false,
        handleLoss, removeConnection]
      cases s.destroyNetPlayer E (s.getNetworkIdFromAddress E packet.systemAddress) <;> rfl
    · simp only [step, update, hactive, hkind, Bool.not_true, Bool.false_eq_true, if_false,
        handleLoss, removeConnection]
      cases s.destroyNetPlayer E (s.getNetworkIdFromAddress E packet.systemAddress) <;> rfl

/-! ## The property -/

/-- Between the two sessions only net players with this id have been taken out of the game and out
of the hooks, and the local player is as it was. -/
structure SparesHero (E : Engine σ) (networkId : Int32) (s s' : Session (σ × List GameCall)) :
    Prop where
  calls : ∃ made, s'.engine.2 = s.engine.2 ++ made ∧ ∀ call ∈ made, ∃ player,
    (call = .uninitCharacter player ∨ call = .uninitialise player) ∧
      (∃ netPlayer ∈ s.netPlayers, netPlayer.networkId = networkId ∧
        E.getPlayer s.engine.1 netPlayer.localId = some player) ∧
      ∀ localNetPlayer, s.localNetPlayer = some localNetPlayer →
        E.getPlayer s.engine.1 localNetPlayer.localId ≠ some player
  movement : ∀ entry ∈ s.resolveMovementAccelerationCallbacks,
    entry ∉ s'.resolveMovementAccelerationCallbacks →
      ∃ netPlayer ∈ s.netPlayers, entry.1 = movementKey netPlayer.networkId
  facing : ∀ entry ∈ s.resolveFacingDirectionCallbacks,
    entry ∉ s'.resolveFacingDirectionCallbacks →
      ∃ netPlayer ∈ s.netPlayers, entry.1 = facingKey netPlayer.networkId
  ownMovement : ∀ localNetPlayer, s.localNetPlayer = some localNetPlayer →
    ∀ entry ∈ s.resolveMovementAccelerationCallbacks,
      entry.1 = movementKey localNetPlayer.networkId →
        entry ∈ s'.resolveMovementAccelerationCallbacks
  ownFacing : ∀ localNetPlayer, s.localNetPlayer = some localNetPlayer →
    ∀ entry ∈ s.resolveFacingDirectionCallbacks,
      entry.1 = facingKey localNetPlayer.networkId →
        entry ∈ s'.resolveFacingDirectionCallbacks

/-- `DestroyNetPlayer` of every id that the event delivers returns and spares the hero. -/
def Spares (E : Engine σ) (s : Session (σ × List GameCall))
    (event : SessionEvent (σ × List GameCall)) : Prop :=
  ∀ networkId, Delivers E.recorded s event networkId →
    ∃ s', s.destroyNetPlayer E.recorded networkId = .ok s' ∧ SparesHero E networkId s s'

/-- Every id that the event delivers is that of a net player and not the local player's, unless the
lookup finds no creature anyway. -/
def Aims (E : Engine σ) (s : Session (σ × List GameCall))
    (event : SessionEvent (σ × List GameCall)) : Prop :=
  ∀ networkId, Delivers E.recorded s event networkId →
    s.getCreatureFromNetworkId E.recorded networkId = none ∨
      networkId ∈ s.netPlayers.map NetPlayer.networkId ∧
        ∀ localNetPlayer, s.localNetPlayer = some localNetPlayer →
          networkId ≠ localNetPlayer.networkId

/-! ## Local ids -/

/-- Players have different local ids, none of them negative. -/
structure Seated (s : Session σ) : Prop extends Placed s where
  distinct : s.localIds.Nodup

section Seats

variable {E : Engine σ} {s s' : Session σ}

theorem seated_createNetPlayer (hs : Seated s) {networkId defGlobalIndex : Int32}
    {position : Vec3} (h : s.createNetPlayer E networkId position defGlobalIndex = .ok s') :
    Seated s' := by
  refine ⟨hs.toPlaced.createNetPlayer h, ?_⟩
  rcases players_createNetPlayer h with ⟨_, ⟨_, hsame⟩ | ⟨_, _, hadded⟩⟩
  · rw [localIds_eq, hsame, ← localIds_eq]
    exact hs.distinct
  · -- The new entry gets a local id that nobody has.
    have hnew := List.Nodup.concat s.getFreeLocalId_not_mem hs.distinct
    rw [localIds_eq, hadded]
    simpa [← localIds_eq] using hnew

theorem seated_createNetPlayersLoop {count : Nat} {bs : BitStream} (hs : Seated s)
    (h : createNetPlayersLoop E count bs s = .ok s') : Seated s' := by
  refine createNetPlayersLoop_rel (R := fun s s' => Seated s → Seated s') (fun _ => id)
    (fun h h' hs => h' (h hs)) ?_ h hs
  intro s s' networkId position defGlobalIndex hentry hs
  rcases createNetPlayers_cases hentry with rfl | hcreated
  · exact hs
  · exact seated_createNetPlayer hs hcreated

theorem seated_createLocalNetPlayer (hs : Seated s) (networkId : Int32) (position : Vec3) :
    Seated (s.createLocalNetPlayer E networkId position) := by
  refine ⟨hs.toPlaced.createLocalNetPlayer networkId position, ?_⟩
  rcases createLocalNetPlayer_cases E s networkId position with ⟨_, hsame⟩ | ⟨_, hset, _⟩
  · rw [hsame]
    exact hs.distinct
  · -- The old local player's id goes, and the free one comes in its place.
    have hfree := s.getFreeLocalId_not_mem
    have hdistinct := hs.distinct
    rw [localIds, List.mem_append, not_or] at hfree
    rw [localIds, List.nodup_append] at hdistinct
    rw [localIds, hset.localNetPlayer, hset.netPlayers]
    exact List.nodup_cons.2 ⟨hfree.2, hdistinct.2.1⟩

theorem Seated.step {event : SessionEvent σ} (hs : Seated s) (h : s.step E event = .ok s') :
    Seated s' := by
  cases step_change h with
  | fewer hfewer =>
    -- Fewer players have fewer ids.
    refine ⟨hfewer.placed hs.toPlaced, ?_⟩
    have hdistinct := hs.distinct
    rw [localIds_eq] at hdistinct ⊢
    exact hdistinct.sublist (hfewer.players.map Prod.snd)
  | createNetPlayer _ _ hcreated => exact seated_createNetPlayer hs hcreated
  | createNetPlayers hloop => exact seated_createNetPlayersLoop hs hloop
  | @createLocalNetPlayer _ _ s₀ _ _ _ hlocal hnet =>
    refine seated_createLocalNetPlayer ⟨hs.toPlaced.congr hlocal hnet, ?_⟩ _ _
    rw [localIds, hlocal, hnet]
    exact hs.distinct

theorem seated_opened (E : Engine σ) (process : Process σ) (opening : Opening) :
    Seated (opened E process opening) := by
  rcases opened_players E process opening with ⟨hplaced, hnil⟩
  refine ⟨hplaced, ?_⟩
  rw [localIds, hnil]
  cases (opened E process opening).localNetPlayer <;> simp

end Seats

/-! ## One call -/

section Call

variable {E : Engine σ} {s s' : Session (σ × List GameCall)} {networkId : Int32}

theorem SparesHero.refl (E : Engine σ) (networkId : Int32) (s : Session (σ × List GameCall)) :
    SparesHero E networkId s s where
  calls := ⟨[], by simp, by simp⟩
  movement entry hmem hgone := absurd hmem hgone
  facing entry hmem hgone := absurd hmem hgone
  ownMovement _ _ entry hmem _ := hmem
  ownFacing _ _ entry hmem _ := hmem

theorem calls_of_spoke {player : PlayerPtr}
    (h : Spoke (withoutPlayer E.recorded s networkId player) s') :
    s'.engine.2 = s.engine.2 ++ [.uninitCharacter player, .uninitialise player] := by
  rcases h with ⟨sent, rfl⟩
  simp [withoutPlayer, engineWithout, Engine.recorded]

/-- The vector's first entry with an id of its own is what the lookup finds. -/
theorem exists_of_mem_ids (hmem : networkId ∈ s.netPlayers.map NetPlayer.networkId)
    (hself : ∀ localNetPlayer, s.localNetPlayer = some localNetPlayer →
      networkId ≠ localNetPlayer.networkId) :
    ∃ netPlayer ∈ s.netPlayers, netPlayer.networkId = networkId ∧
      s.getLocalIdFromNetworkId networkId = netPlayer.localId := by
  -- The entry that is found need not be the one that is known to be there.
  rcases List.mem_map.1 hmem with ⟨entry, hentry, hid⟩
  cases hfind : s.netPlayers.find? fun netPlayer => netPlayer.networkId == networkId with
  | none =>
    have hno := List.find?_eq_none.1 hfind entry hentry
    simp [hid] at hno
  | some netPlayer =>
    have hsame : netPlayer.networkId = networkId := by
      simpa using List.find?_some hfind
    refine ⟨netPlayer, List.mem_of_find?_eq_some hfind, hsame, ?_⟩
    cases hlocal : s.localNetPlayer with
    | none => simp [getLocalIdFromNetworkId, hlocal, hfind]
    | some localNetPlayer =>
      have hne := Ne.symm (hself localNetPlayer hlocal)
      simp [getLocalIdFromNetworkId, hlocal, hfind, hne]

theorem sparesHero_of_entry
    (hdistinct : ∀ e i j player, E.getPlayer e i = some player → E.getPlayer e j = some player →
      i = j)
    (hs : Seated s) (hmem : networkId ∈ s.netPlayers.map NetPlayer.networkId)
    (hself : ∀ localNetPlayer, s.localNetPlayer = some localNetPlayer →
      networkId ≠ localNetPlayer.networkId)
    {player : PlayerPtr}
    (hfound : playerWithCreature E.recorded s.engine (s.getLocalIdFromNetworkId networkId) =
      some player)
    (hspoke : Spoke (withoutPlayer E.recorded s networkId player) s') :
    SparesHero E networkId s s' := by
  rcases exists_of_mem_ids hmem hself with ⟨netPlayer, hnet, hid, hlookup⟩
  have hplayer : E.getPlayer s.engine.1 netPlayer.localId = some player :=
    hlookup ▸ getPlayer_of_playerWithCreature hfound
  have hcalls := calls_of_spoke hspoke
  rcases hspoke with ⟨sent, rfl⟩
  refine ⟨⟨_, hcalls, ?_⟩, ?_, ?_, ?_, ?_⟩
  · -- The calls are made on the entry's player.
    intro call hcall
    refine ⟨player, by simpa using hcall, ⟨netPlayer, hnet, hid, hplayer⟩, ?_⟩
    intro localNetPlayer hlocal hsame
    -- The hero's local id is not that of an entry.
    have hids := hs.distinct
    rw [localIds, List.nodup_append] at hids
    exact hids.2.2 localNetPlayer.localId (by simp [hlocal]) netPlayer.localId
      (List.mem_map_of_mem hnet) (hdistinct _ _ _ _ hsame hplayer)
  · -- What is gone from the hooks was under the entry's id.
    intro entry hentry hgone
    refine ⟨netPlayer, hnet, ?_⟩
    by_contra hkey
    exact hgone (List.mem_filter.2 ⟨hentry, by simpa [hid] using hkey⟩)
  · intro entry hentry hgone
    refine ⟨netPlayer, hnet, ?_⟩
    by_contra hkey
    exact hgone (List.mem_filter.2 ⟨hentry, by simpa [hid] using hkey⟩)
  · -- The hero's closures are under another id.
    intro localNetPlayer hlocal entry hentry hkey
    have hne := hself localNetPlayer hlocal
    refine List.mem_filter.2 ⟨hentry, ?_⟩
    simpa [hkey] using fun heq => hne (movementKey_injective heq).symm
  · intro localNetPlayer hlocal entry hentry hkey
    have hne := hself localNetPlayer hlocal
    refine List.mem_filter.2 ⟨hentry, ?_⟩
    simpa [hkey] using fun heq => hne (facingKey_injective heq).symm

/-- `DestroyNetPlayer` spares the hero exactly when it finds nothing or is given a net player's id
other than the hero's. -/
theorem spares_call_iff
    (hdistinct : ∀ e i j player, E.getPlayer e i = some player → E.getPlayer e j = some player →
      i = j)
    (hs : Seated s) :
    (∃ s', s.destroyNetPlayer E.recorded networkId = .ok s' ∧ SparesHero E networkId s s') ↔
      s.getCreatureFromNetworkId E.recorded networkId = none ∨
        networkId ∈ s.netPlayers.map NetPlayer.networkId ∧
          ∀ localNetPlayer, s.localNetPlayer = some localNetPlayer →
            networkId ≠ localNetPlayer.networkId := by
  have hisSome := playerWithCreature_isSome E.recorded s (s.getLocalIdFromNetworkId networkId)
  cases hfound : playerWithCreature E.recorded s.engine
      (s.getLocalIdFromNetworkId networkId) with
  -- Nothing is found: the call does nothing, and nothing is what the condition asks for.
  | none =>
    have hnone : s.getCreatureFromNetworkId E.recorded networkId = none := by
      simpa [hfound, getCreatureFromNetworkId] using hisSome.symm
    exact ⟨fun _ => Or.inl hnone,
      fun _ => ⟨s, destroyNetPlayer_absent hfound, SparesHero.refl E networkId s⟩⟩
  | some player =>
    have hplayer := getPlayer_of_playerWithCreature hfound
    have hsome : s.getCreatureFromNetworkId E.recorded networkId ≠ none := by
      intro hnone
      rw [getCreatureFromNetworkId] at hnone
      simp [hfound, hnone] at hisSome
    constructor
    · rintro ⟨s', hok, hspares⟩
      rcases destroyNetPlayer_shape hok with ⟨hnone, _⟩ | ⟨player', hfound', hspoke⟩
      · cases hfound.symm.trans hnone
      · obtain rfl := Option.some.inj (hfound.symm.trans hfound')
        -- The two calls that were made must be on the player of an entry.
        rcases hspares.calls with ⟨made, hmade, hcalls⟩
        have hboth := List.append_cancel_left ((calls_of_spoke hspoke).symm.trans hmade)
        rcases hcalls (.uninitCharacter player) (by simp [← hboth]) with
          ⟨player', hcall, ⟨netPlayer, hnet, hid, _⟩, hhero⟩
        obtain rfl : player = player' := by simpa using hcall
        refine Or.inr ⟨hid ▸ List.mem_map_of_mem hnet, ?_⟩
        rintro localNetPlayer hlocal rfl
        refine hhero localNetPlayer hlocal ?_
        simpa [getLocalIdFromNetworkId, hlocal, Engine.recorded] using hplayer
    · rintro (hnone | ⟨hmem, hself⟩)
      · exact absurd hnone hsome
      · -- There is an entry, so there is a local player, and the removal goes through.
        have hstarted : s.localNetPlayer.isSome = true := by
          apply hs.started
          intro hnil
          simp [hnil] at hmem
        rcases destroyNetPlayer_present hstarted hfound with ⟨s', hok, hspoke⟩
        exact ⟨s', hok, sparesHero_of_entry hdistinct hs hmem hself hfound hspoke⟩

end Call

/-- In a session of the mod, as host or as client, inbound messages and lost connections never
touch the hero exactly when every id they deliver is a net player's and not the hero's, or finds no
creature. -/
theorem hero_spared_iff (E : Engine σ)
    (hdistinct : ∀ e i j player, E.getPlayer e i = some player → E.getPlayer e j = some player →
      i = j)
    (process : Process (σ × List GameCall)) (opening : Opening)
    (events : List (SessionEvent (σ × List GameCall))) :
    Fallible.StepsSatisfy (step E.recorded) (Spares E) (opened E.recorded process opening)
        events ↔
      Fallible.StepsSatisfy (step E.recorded) (Aims E) (opened E.recorded process opening)
        events := by
  refine Fallible.stepsSatisfy_congr (I := Seated) (seated_opened E.recorded process opening) ?_ ?_
  · intro s event s' hs hstep
    exact hs.step hstep
  · intro s event hs
    exact forall₂_congr fun networkId _ => spares_call_iff hdistinct hs

/-! ### A message about the host -/

/-- A game in which only the host's own hero exists, with nothing recorded yet. -/
def recordedProcess : Process (Engine.Table × List GameCall) where
  engine := ([(0, 1000)], [])
  boundAddress := exampleAddress "" 60000

/-- An `ID_DESTROY_NET_PLAYER` from a client. -/
def destroyPacket (networkId : Int32) : Packet where
  systemAddress := exampleAddress "" 50001
  guid := 1
  data := (destroyNetPlayerMessage networkId).data
  nonempty := by simp [destroyNetPlayerMessage, BitStream.write]

theorem table_distinct (e : Engine.Table) (i j : Int) (player : PlayerPtr)
    (hi : (Engine.table exampleAddress).getPlayer e i = some player)
    (hj : (Engine.table exampleAddress).getPlayer e j = some player) : i = j := by
  by_cases hi₀ : 0 ≤ i
  · by_cases hj₀ : 0 ≤ j
    · simp only [Engine.table, if_pos hi₀] at hi
      simp only [Engine.table, if_pos hj₀] at hj
      have hnat : i.toNat = j.toNat := Option.some.inj (hi.trans hj.symm)
      rw [← Int.toNat_of_nonneg hi₀, hnat, Int.toNat_of_nonneg hj₀]
    · simp [Engine.table, hj₀] at hj
  · simp [Engine.table, hi₀] at hi

/-- The host once both clients have announced their players. -/
def visitedHost : Session (Engine.Table × List GameCall) :=
  let start := opened (Engine.table exampleAddress).recorded recordedProcess (.host 60000 true)
  (run (Engine.table exampleAddress).recorded start arrivals).toOption.getD start

theorem run_visitedHost :
    run (Engine.table exampleAddress).recorded
      (opened (Engine.table exampleAddress).recorded recordedProcess (.host 60000 true)) arrivals =
        .ok visitedHost :=
  Fallible.run_eq_ok (by decide +kernel)
    (opened (Engine.table exampleAddress).recorded recordedProcess (.host 60000 true))

theorem players_visitedHost :
    visitedHost.netPlayers.map NetPlayer.networkId = [1, 2] ∧
      visitedHost.localNetPlayer = some { networkId := 0, localId := 0 } ∧
      visitedHost.getNetworkIdFromAddress (Engine.table exampleAddress).recorded
        (clientPacket 50001 22 []).systemAddress = 1 := by
  decide +kernel

/-- The packets of the arrivals deliver no id, and the loss delivers player 1's. -/
theorem aims_visits :
    Fallible.StepsSatisfy (step (Engine.table exampleAddress).recorded)
      (Aims (Engine.table exampleAddress))
      (opened (Engine.table exampleAddress).recorded recordedProcess (.host 60000 true))
      (arrivals ++ [departure]) := by
  refine Fallible.stepsSatisfy_snoc.2 ⟨Fallible.stepsSatisfy_of_forall ?_, ?_⟩
  · intro event hmem s
    simp only [arrivals, List.mem_cons, List.not_mem_nil, or_false] at hmem
    rcases hmem with rfl | rfl | rfl | rfl
    all_goals
      rintro networkId (⟨_, hkind⟩ | ⟨_, hkind⟩)
      · exact absurd hkind (by decide)
      · exact absurd hkind (by decide)
  · intro s hrun
    obtain rfl := Except.ok.inj (run_visitedHost.symm.trans hrun)
    rcases players_visitedHost with ⟨hids, hlocal, hlookup⟩
    rintro networkId (⟨_, hkind⟩ | ⟨_, _⟩)
    · exact absurd hkind (by decide)
    · refine Or.inr ?_
      rw [hids, hlocal, hlookup]
      refine ⟨by decide, ?_⟩
      rintro localNetPlayer ⟨⟩
      decide

/-- Two clients join, one of them is lost, and the host's hero is as it was. -/
theorem hero_spared_iff_host :
    Fallible.StepsSatisfy (step (Engine.table exampleAddress).recorded)
      (Spares (Engine.table exampleAddress))
      (opened (Engine.table exampleAddress).recorded recordedProcess (.host 60000 true))
      (arrivals ++ [departure]) :=
  (hero_spared_iff (Engine.table exampleAddress) table_distinct recordedProcess (.host 60000 true)
    (arrivals ++ [departure])).2 aims_visits

/-- A client asks the host to destroy player 0, the host's own hero. -/
theorem destroy_message_hits_hero :
    ¬ ∀ (E : Engine Engine.Table) (process : Process (Engine.Table × List GameCall))
        (opening : Opening) (events : List (SessionEvent (Engine.Table × List GameCall))),
        Fallible.StepsSatisfy (step E.recorded) (Spares E) (opened E.recorded process opening)
          events := by
  intro hall
  let E := Engine.table exampleAddress
  let s := opened E.recorded recordedProcess (.host 60000 true)
  have hsteps := hall E recordedProcess (.host 60000 true) [.packet (destroyPacket 0) 0]
  have hspares := hsteps [] (.packet (destroyPacket 0) 0) [] rfl s rfl
  have hkind : (destroyPacket 0).kind = .destroyNetPlayer := by decide
  rcases hspares 0 (Delivers.message rfl hkind) with ⟨s', hok, hspared⟩
  have hcall : s.destroyNetPlayer E.recorded 0 =
      .ok { s with
        engine := ([], [.uninitCharacter 0, .uninitialise 0])
        resolveMovementAccelerationCallbacks := []
        resolveFacingDirectionCallbacks := [] } := rfl
  obtain rfl := Except.ok.inj (hcall.symm.trans hok)
  -- The hero has been taken out of the game, and the vector is empty.
  rcases hspared.calls with ⟨made, hmade, hcalls⟩
  have hmem : GameCall.uninitCharacter 0 ∈ made := by
    have heq : [GameCall.uninitCharacter 0, .uninitialise 0] = made := hmade
    simp [← heq]
  rcases hcalls _ hmem with ⟨player, _, ⟨netPlayer, hnet, _⟩, _⟩
  cases hnet

end Session
end Mod
end Crossover
