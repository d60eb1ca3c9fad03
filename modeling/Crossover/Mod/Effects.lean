import Crossover.Mod.Network

/-!
# Effects — what each method does to the players

Most methods only touch the game, the callback maps and the peer.  The others are described by one
lemma each, so that an invariant of the players never has to look into a handler.
-/

namespace Crossover
namespace Mod

open Wire

/-- The identity of a net player: what motion does not change. -/
def NetPlayer.ids (netPlayer : NetPlayer) : Int32 × Int :=
  (netPlayer.networkId, netPlayer.localId)

namespace Session

variable {σ : Type}

/-! ## The loop of `DestroyNetPlayers`, round by round -/

section Rounds

variable (E : Engine σ) {s : Session σ} {front : NetPlayer} {rest : List NetPlayer}

theorem destroyNetPlayers_nil (h : s.netPlayers = []) (rounds : Nat) :
    destroyNetPlayers E rounds s = .ok s := by
  unfold destroyNetPlayers
  simp [h]

theorem destroyNetPlayers_zero (h : s.netPlayers = front :: rest) :
    destroyNetPlayers E 0 s = .error .unfinished := by
  unfold destroyNetPlayers
  simp [h]

theorem destroyNetPlayers_succ (h : s.netPlayers = front :: rest) (rounds : Nat) :
    destroyNetPlayers E (rounds + 1) s =
      match s.destroyNetPlayer E front.networkId with
      | .error fault => .error fault
      | .ok s => destroyNetPlayers E rounds s := by
  conv_lhs => unfold destroyNetPlayers
  cases hround : s.destroyNetPlayer E front.networkId with
  | error fault => simp [h, hround]
  | ok s' => simp [h, hround]

end Rounds

/-! ## Rules for the loops

A relation between the state before and the state after that is reflexive and transitive holds
across a loop if it holds across its body. -/

section Loops

variable {E : Engine σ} {R : Session σ → Session σ → Prop} (refl : ∀ s, R s s)
  (trans : ∀ {s s' s''}, R s s' → R s' s'' → R s s'') {s s' : Session σ}

include refl trans

/-- The closures of a hook. -/
theorem runAll_rel {run : Session σ → MotionCallback → Except Fault (Session σ)}
    (hrun : ∀ {s s' callback}, run s callback = .ok s' → R s s')
    {callbacks : CallbackMap MotionCallback} (h : runAll run callbacks s = .ok s') : R s s' := by
  induction callbacks generalizing s with
  | nil =>
    cases h
    exact refl _
  | cons entry rest ih =>
    simp only [runAll] at h
    split at h
    · cases h
    · rename_i hfirst
      exact trans (hrun hfirst) (ih h)

theorem updateRegionLoad_rel (hrun : ∀ s callback, R s (s.runRegionLoadCallback E callback)) :
    R s (s.updateRegionLoad E) := by
  unfold updateRegionLoad
  -- The map that is iterated is the one before the first closure runs.
  induction s.updateRegionLoadCallbacks generalizing s with
  | nil => exact refl s
  | cons entry rest ih => exact trans (hrun s entry.2) ih

/-- The records of a roster. -/
theorem createNetPlayersLoop_rel
    (hcreate : ∀ {s s' networkId position defGlobalIndex},
      s.createNetPlayers E networkId position defGlobalIndex = .ok s' → R s s')
    {count : Nat} {bs : BitStream} (h : createNetPlayersLoop E count bs s = .ok s') : R s s' := by
  induction count generalizing bs s with
  | zero =>
    cases h
    exact refl _
  | succ count ih =>
    simp only [createNetPlayersLoop] at h
    split at h
    · cases h
    · rename_i hentry
      exact trans (hcreate hentry) (ih h)

/-- The rounds of `DestroyNetPlayers`. -/
theorem destroyNetPlayers_rel
    (hdestroy : ∀ {s s' networkId}, s.destroyNetPlayer E networkId = .ok s' → R s s')
    {rounds : Nat} (h : destroyNetPlayers E rounds s = .ok s') : R s s' := by
  induction rounds generalizing s with
  | zero =>
    cases hlist : s.netPlayers with
    | nil =>
      rw [destroyNetPlayers_nil E hlist] at h
      exact Except.ok.inj h ▸ refl s
    | cons front rest =>
      rw [destroyNetPlayers_zero E hlist] at h
      cases h
  | succ rounds ih =>
    cases hlist : s.netPlayers with
    | nil =>
      rw [destroyNetPlayers_nil E hlist] at h
      exact Except.ok.inj h ▸ refl s
    | cons front rest =>
      rw [destroyNetPlayers_succ E hlist] at h
      split at h
      · cases h
      · rename_i hfirst
        exact trans (hdestroy hfirst) (ih h)

end Loops

/-- A roster's record creates a net player, or is skipped because it names the receiver or somebody
who is known. -/
theorem createNetPlayers_spec {E : Engine σ} {s s' : Session σ}
    {networkId defGlobalIndex : Int32} {position : Vec3}
    (h : s.createNetPlayers E networkId position defGlobalIndex = .ok s') :
    ∃ localNetPlayer, s.localNetPlayer = some localNetPlayer ∧
      (networkId ≠ localNetPlayer.networkId ∧ s.getLocalIdFromNetworkId networkId = -1 ∧
          s.createNetPlayer E networkId position defGlobalIndex = .ok s' ∨
        (networkId = localNetPlayer.networkId ∨ s.getLocalIdFromNetworkId networkId ≠ -1) ∧
          s' = s) := by
  unfold createNetPlayers at h
  split at h
  · cases h
  · rename_i localNetPlayer hlocal
    refine ⟨localNetPlayer, hlocal, ?_⟩
    split at h
    · rename_i hguard
      exact Or.inl ⟨hguard.1, hguard.2, h⟩
    · rename_i hguard
      cases h
      exact Or.inr ⟨(not_and_or.1 hguard).imp_left not_not.1, rfl⟩

theorem createNetPlayers_cases {E : Engine σ} {s s' : Session σ}
    {networkId defGlobalIndex : Int32} {position : Vec3}
    (h : s.createNetPlayers E networkId position defGlobalIndex = .ok s') :
    s' = s ∨ s.createNetPlayer E networkId position defGlobalIndex = .ok s' := by
  rcases createNetPlayers_spec h with ⟨_, _, ⟨_, _, hcreated⟩ | ⟨_, hsame⟩⟩
  · exact Or.inr hcreated
  · exact Or.inl hsame

/-! ## Methods that leave the players alone -/

/-- The session's players and connections are as before. -/
structure SameManager (s s' : Session σ) : Prop where
  localNetPlayer : s'.localNetPlayer = s.localNetPlayer
  netPlayers : s'.netPlayers = s.netPlayers
  network : s'.network = s.network

/-- Nor has the game changed. -/
structure Quiet (s s' : Session σ) : Prop extends SameManager s s' where
  engine : s'.engine = s.engine

namespace SameManager

theorem refl (s : Session σ) : SameManager s s :=
  ⟨rfl, rfl, rfl⟩

theorem trans {s s' s'' : Session σ} (h : SameManager s s') (h' : SameManager s' s'') :
    SameManager s s'' :=
  ⟨h'.localNetPlayer.trans h.localNetPlayer, h'.netPlayers.trans h.netPlayers,
    h'.network.trans h.network⟩

end SameManager

namespace Quiet

theorem refl (s : Session σ) : Quiet s s :=
  ⟨SameManager.refl s, rfl⟩

theorem trans {s s' s'' : Session σ} (h : Quiet s s') (h' : Quiet s' s'') : Quiet s s'' :=
  ⟨h.toSameManager.trans h'.toSameManager, h'.engine.trans h.engine⟩

end Quiet

/-- Nothing has changed but that more calls on the peer have been made. -/
def Spoke (s s' : Session σ) : Prop :=
  ∃ sent, s' = { s with calls := s.calls ++ sent }

namespace Spoke

theorem refl (s : Session σ) : Spoke s s :=
  ⟨[], by simp⟩

theorem trans {s s' s'' : Session σ} (h : Spoke s s') (h' : Spoke s' s'') : Spoke s s'' := by
  rcases h with ⟨sent, rfl⟩
  rcases h' with ⟨more, rfl⟩
  exact ⟨sent ++ more, by simp⟩

theorem quiet {s s' : Session σ} (h : Spoke s s') : Quiet s s' := by
  rcases h with ⟨sent, rfl⟩
  exact ⟨⟨rfl, rfl, rfl⟩, rfl⟩

end Spoke

section Frames

variable (E : Engine σ) (s : Session σ)

theorem spoke_peerSend (data : List UInt8) (priority : PacketPriority)
    (reliability : PacketReliability) (address : SystemAddress) :
    Spoke s (s.peerSend data priority reliability address) := by
  unfold peerSend
  split
  · exact ⟨_, rfl⟩
  · exact Spoke.refl s

theorem spoke_sendToHost (bs : BitStream) (reliability : PacketReliability) :
    Spoke s (s.sendToHost E bs reliability) :=
  spoke_peerSend s _ _ _ _

theorem spoke_sendToClient (networkId : Int32) (bs : BitStream)
    (reliability : PacketReliability) :
    Spoke s (s.sendToClient networkId bs reliability) := by
  unfold sendToClient
  split
  · exact Spoke.refl s
  · exact spoke_peerSend s _ _ _ _

theorem spoke_sendToAllClientsExcept (networkId : Int32) (bs : BitStream)
    (reliability : PacketReliability) :
    Spoke s (s.sendToAllClientsExcept networkId bs reliability) := by
  unfold sendToAllClientsExcept
  induction clientsExcept s.network.connections networkId generalizing s with
  | nil => exact Spoke.refl s
  | cons connection rest ih =>
    exact (spoke_peerSend s _ _ _ _).trans (ih _)

/-- On an open peer a broadcast is one call for each receiver. -/
theorem sendToAllClientsExcept_eq (hactive : s.network.active = true) (networkId : Int32)
    (bs : BitStream) (reliability : PacketReliability) :
    s.sendToAllClientsExcept networkId bs reliability =
      { s with calls := s.calls ++
          (clientsExcept s.network.connections networkId).map fun connection =>
            .send { data := bs.data, priority := .high, reliability := reliability,
                    address := connection.address } } := by
  unfold sendToAllClientsExcept
  generalize clientsExcept s.network.connections networkId = receivers
  induction receivers generalizing s with
  | nil => simp
  | cons connection rest ih =>
    have hopen : (s.peerSend bs.data .high reliability connection.address).network.active =
        true := by
      rw [(spoke_peerSend s _ _ _ _).quiet.network, hactive]
    rw [List.foldl_cons, ih _ hopen]
    simp [peerSend, hactive]

theorem spoke_broadcastCreateNetPlayers (networkId : Int32) :
    Spoke s (s.broadcastCreateNetPlayers E networkId) := by
  simp only [broadcastCreateNetPlayers]
  split
  · exact spoke_sendToClient s _ _ _
  · split
    · exact Spoke.refl s
    · exact spoke_sendToClient s _ _ _

theorem quiet_peerSend (data : List UInt8) (priority : PacketPriority)
    (reliability : PacketReliability) (address : SystemAddress) :
    Quiet s (s.peerSend data priority reliability address) :=
  (spoke_peerSend s _ _ _ _).quiet

theorem quiet_sendToHost (bs : BitStream) (reliability : PacketReliability) :
    Quiet s (s.sendToHost E bs reliability) :=
  (spoke_sendToHost E s _ _).quiet

theorem quiet_sendToAllClientsExcept (networkId : Int32) (bs : BitStream)
    (reliability : PacketReliability) :
    Quiet s (s.sendToAllClientsExcept networkId bs reliability) :=
  (spoke_sendToAllClientsExcept s _ _ _).quiet

theorem quiet_broadcastCreateNetPlayers (networkId : Int32) :
    Quiet s (s.broadcastCreateNetPlayers E networkId) :=
  (spoke_broadcastCreateNetPlayers E s _).quiet

theorem quiet_applyNetPlayerMovement (networkId : Int32) :
    Quiet s (s.applyNetPlayerMovement E networkId) := by
  unfold applyNetPlayerMovement
  split <;> exact ⟨⟨rfl, rfl, rfl⟩, rfl⟩

theorem quiet_applyNetPlayerRotation (networkId : Int32) :
    Quiet s (s.applyNetPlayerRotation E networkId) := by
  unfold applyNetPlayerRotation
  split <;> exact ⟨⟨rfl, rfl, rfl⟩, rfl⟩

theorem quiet_broadcastLocalNetPlayerMovement (networkId : Int32) :
    Quiet s (s.broadcastLocalNetPlayerMovement E networkId) := by
  unfold broadcastLocalNetPlayerMovement
  split <;> exact ⟨⟨rfl, rfl, rfl⟩, rfl⟩

theorem quiet_broadcastLocalNetPlayerRotation (networkId : Int32) :
    Quiet s (s.broadcastLocalNetPlayerRotation E networkId) := by
  unfold broadcastLocalNetPlayerRotation
  split <;> exact ⟨⟨rfl, rfl, rfl⟩, rfl⟩

/-- The game starts to load the host's region, unless the creature is missing. -/
theorem teleportLocalNetPlayerToHost_effect (networkId : Int32) (position : Vec3) :
    SameManager s (s.teleportLocalNetPlayerToHost E networkId position) ∧
      ((s.teleportLocalNetPlayerToHost E networkId position).engine = s.engine ∨
        ∃ angle, (s.teleportLocalNetPlayerToHost E networkId position).engine =
          E.setAsLoadingRegion s.engine position angle) := by
  unfold teleportLocalNetPlayerToHost
  split
  · exact ⟨SameManager.refl s, Or.inl rfl⟩
  · exact ⟨⟨rfl, rfl, rfl⟩, Or.inr ⟨_, rfl⟩⟩

theorem quiet_runRegionLoadCallback (callback : RegionLoadCallback) :
    Quiet s (s.runRegionLoadCallback E callback) := by
  unfold runRegionLoadCallback
  split
  · exact Quiet.refl s
  · have herased : Quiet s
        { s with updateRegionLoadCallbacks := s.updateRegionLoadCallbacks.erase regionLoadKey } :=
      ⟨⟨rfl, rfl, rfl⟩, rfl⟩
    exact herased.trans (quiet_sendToHost E _ _ _)

theorem quiet_updateRegionLoad : Quiet s (s.updateRegionLoad E) :=
  updateRegionLoad_rel Quiet.refl Quiet.trans (quiet_runRegionLoadCallback E)

variable {E s} {s' : Session σ}

theorem spoke_sendMotion {networkId : Int32} {bs : BitStream}
    (h : s.sendMotion E networkId bs = .ok s') : Spoke s s' := by
  unfold sendMotion at h
  split at h
  · cases h
  · split at h
    · cases h
      exact spoke_sendToAllClientsExcept s _ _ _
    · cases h
      exact spoke_sendToHost E s _ _

theorem quiet_sendMotion {networkId : Int32} {bs : BitStream}
    (h : s.sendMotion E networkId bs = .ok s') : Quiet s s' :=
  (spoke_sendMotion h).quiet

/-- The connection is added in any case; what the callback sends comes behind that. -/
theorem spoke_handleConnectionNotification {address : SystemAddress}
    (h : s.handleConnectionNotification E address = .ok s') :
    Spoke { s with network := { s.network with connections := s.network.connections ++
      [{ address := address, networkId := getFreeNetworkId s.network.connections }] } } s' := by
  simp only [handleConnectionNotification, connectionNotification] at h
  split at h
  · cases h
  · split at h
    · cases h
      exact Spoke.refl _
    · cases h
      exact spoke_peerSend _ _ _ _ _

/-- A motion closure sends, or it changes the game. -/
inductive Moves (E : Engine σ) (s s' : Session σ) : Prop
  | sent {networkId : Int32} {bs : BitStream} : s.sendMotion E networkId bs = .ok s' → Moves E s s'
  | applied (engine : σ) : s' = { s with engine := engine } → Moves E s s'

theorem moves_runMovementCallback {callback : MotionCallback}
    (h : s.runMovementCallback E callback = .ok s') : Moves E s s' := by
  cases callback with
  | broadcast networkId creature => exact .sent h
  | apply networkId creature =>
    simp only [runMovementCallback] at h
    split at h
    · cases h
      exact .applied s.engine rfl
    · split at h <;> cases h <;> exact .applied _ rfl

theorem moves_runFacingCallback {callback : MotionCallback}
    (h : s.runFacingCallback E callback = .ok s') : Moves E s s' := by
  cases callback with
  | broadcast networkId creature => exact .sent h
  | apply networkId creature =>
    simp only [runFacingCallback] at h
    split at h
    · cases h
      exact .applied s.engine rfl
    · cases h
      exact .applied _ rfl

theorem Moves.sameManager (h : Moves E s s') : SameManager s s' := by
  cases h with
  | sent hsent => exact (quiet_sendMotion hsent).toSameManager
  | applied engine happlied =>
    rw [happlied]
    exact ⟨rfl, rfl, rfl⟩

theorem sameManager_runAll {run : Session σ → MotionCallback → Except Fault (Session σ)}
    (hrun : ∀ {s s' : Session σ} {callback}, run s callback = .ok s' → Moves E s s')
    {callbacks : CallbackMap MotionCallback} (h : runAll run callbacks s = .ok s') :
    SameManager s s' :=
  runAll_rel SameManager.refl SameManager.trans (fun hmoves => (hrun hmoves).sameManager) h

end Frames

/-! ## Local ids -/

section LocalIds

variable (s : Session σ)

theorem iterate_localId (n : Nat) : (fun localId : Int => localId + 1)^[n] 0 = n := by
  induction n with
  | zero => rfl
  | succ n ih =>
    rw [Function.iterate_succ_apply', ih]
    rfl

theorem localId_injective (n : Nat) : ∀ i ≤ n, ∀ j ≤ n,
    (fun localId : Int => localId + 1)^[i] 0 = (fun localId : Int => localId + 1)^[j] 0 →
      i = j := by
  intro i _ j _ hij
  rw [iterate_localId, iterate_localId] at hij
  exact Int.ofNat_inj.1 hij

/-- The unbounded loop of `GetFreeLocalId` returns. -/
theorem getFreeLocalId_returns :
    FirstFree.Finds (· ∈ s.localIds) (· + 1) 0 s.getFreeLocalId :=
  FirstFree.finds_search (localId_injective _)

theorem getFreeLocalId_not_mem : s.getFreeLocalId ∉ s.localIds :=
  s.getFreeLocalId_returns.not_used

theorem getFreeLocalId_nonneg : 0 ≤ s.getFreeLocalId := by
  rcases s.getFreeLocalId_returns.exists_iterate with ⟨n, heq, _⟩
  rw [heq, iterate_localId]
  exact Int.natCast_nonneg n

end LocalIds

/-! ## Methods that change the players -/

section Changes

variable {E : Engine σ} {s s' : Session σ}

/-- The local player that `CreateLocalNetPlayer` sets, if it gets past its early return. -/
theorem createLocalNetPlayer_cases (E : Engine σ) (s : Session σ) (networkId : Int32)
    (position : Vec3) :
    (s.getCreatureFromLocalId E s.getFreeLocalId = none ∧
      s.createLocalNetPlayer E networkId position = s) ∨
    ((s.getCreatureFromLocalId E s.getFreeLocalId).isSome = true ∧
      SameManager
        { s with localNetPlayer := some { networkId := networkId, localId := s.getFreeLocalId } }
        (s.createLocalNetPlayer E networkId position) ∧
      ((s.createLocalNetPlayer E networkId position).engine = s.engine ∨
        ∃ angle, (s.createLocalNetPlayer E networkId position).engine =
          E.setAsLoadingRegion s.engine position angle)) := by
  cases hcreature : s.getCreatureFromLocalId E s.getFreeLocalId with
  | none =>
    left
    simp [createLocalNetPlayer, hcreature]
  | some creature =>
    right
    let started : Session σ :=
      { s with localNetPlayer := some { networkId := networkId, localId := s.getFreeLocalId } }
    have hmovement := quiet_broadcastLocalNetPlayerMovement E started networkId
    have hmotion := hmovement.trans (quiet_broadcastLocalNetPlayerRotation E _ networkId)
    refine ⟨rfl, ?_⟩
    simp only [createLocalNetPlayer, hcreature]
    -- Only a client is teleported, which touches the game.
    split
    · have hteleport := teleportLocalNetPlayerToHost_effect E
        ((started.broadcastLocalNetPlayerMovement E networkId).broadcastLocalNetPlayerRotation E
          networkId) networkId position
      refine ⟨hmotion.toSameManager.trans hteleport.1, ?_⟩
      rcases hteleport.2 with hsame | ⟨angle, hloading⟩
      · exact Or.inl (hsame.trans hmotion.engine)
      · exact Or.inr ⟨angle, hloading.trans (by rw [hmotion.engine])⟩
    · exact ⟨hmotion.toSameManager, Or.inl hmotion.engine⟩

theorem network_createLocalNetPlayer (E : Engine σ) (s : Session σ) (networkId : Int32)
    (position : Vec3) : (s.createLocalNetPlayer E networkId position).network = s.network := by
  rcases createLocalNetPlayer_cases E s networkId position with ⟨_, hsame⟩ | ⟨_, hset, _⟩
  · rw [hsame]
  · exact hset.network

/-- The player the game has for a new local id. -/
def newPlayer (E : Engine σ) (s : Session σ) : Option PlayerPtr :=
  E.getPlayer (E.createPlayer s.engine s.getFreeLocalId) s.getFreeLocalId

/-- The game after the new player got its creature. -/
def engineWith (E : Engine σ) (s : Session σ) (player : PlayerPtr) (defGlobalIndex : Int32)
    (position : Vec3) : σ :=
  let made := E.create (E.createPlayer s.engine s.getFreeLocalId) defGlobalIndex position
    s.getFreeLocalId
  E.setControlledCreature made.1 player made.2

/-- A `CreateNetPlayer` that returns either finds no player or appends an entry. -/
theorem createNetPlayer_cases {networkId defGlobalIndex : Int32} {position : Vec3}
    (h : s.createNetPlayer E networkId position defGlobalIndex = .ok s') :
    s'.localNetPlayer = s.localNetPlayer ∧ s'.network = s.network ∧
      ((newPlayer E s = none ∧ s'.netPlayers = s.netPlayers) ∨
        ∃ player, newPlayer E s = some player ∧
          s'.engine = engineWith E s player defGlobalIndex position ∧
          s.localNetPlayer.isSome = true ∧
          s'.netPlayers =
            s.netPlayers ++ [{ networkId := networkId, localId := s.getFreeLocalId }]) := by
  simp only [createNetPlayer] at h
  split at h
  · rename_i hplayer
    cases h
    exact ⟨rfl, rfl, Or.inl ⟨hplayer, rfl⟩⟩
  · rename_i player hplayer
    -- The entry is in before the first thing that can go wrong.
    generalize hadded : (Session.mk _ _ _ _ _ _ _ _ : Session σ) = added at h
    have hpushed : added.localNetPlayer = s.localNetPlayer ∧ added.network = s.network ∧
        added.engine = engineWith E s player defGlobalIndex position ∧
        added.netPlayers =
          s.netPlayers ++ [{ networkId := networkId, localId := s.getFreeLocalId }] := by
      rw [← hadded]
      exact ⟨rfl, rfl, rfl, rfl⟩
    have hmotion := (quiet_applyNetPlayerMovement E added networkId).trans
      (quiet_applyNetPlayerRotation E _ networkId)
    have hlocal := hmotion.localNetPlayer.trans hpushed.1
    have hsame : Quiet added s' ∧ s.localNetPlayer.isSome = true := by
      split at h
      · cases h
      · rename_i localNetPlayer hsome
        have hisSome : s.localNetPlayer.isSome = true := by
          rw [← hlocal, hsome]
          rfl
        split at h
        · cases h
          exact ⟨hmotion.trans ((quiet_sendToAllClientsExcept _ _ _ _).trans
            (quiet_broadcastCreateNetPlayers E _ _)), hisSome⟩
        · cases h
          exact ⟨hmotion, hisSome⟩
    refine ⟨hsame.1.localNetPlayer.trans hpushed.1, hsame.1.network.trans hpushed.2.1, Or.inr ?_⟩
    exact ⟨player, hplayer, hsame.1.engine.trans hpushed.2.2.1, hsame.2,
      hsame.1.netPlayers.trans hpushed.2.2.2⟩

/-- When the game has no player to give, the manager is as before. -/
theorem createNetPlayer_of_none (hnone : newPlayer E s = none) (networkId : Int32)
    (position : Vec3) (defGlobalIndex : Int32) :
    s.createNetPlayer E networkId position defGlobalIndex =
      .ok { s with engine := E.createPlayer s.engine s.getFreeLocalId } := by
  unfold newPlayer at hnone
  simp only [createNetPlayer, hnone]

/-- With a local player in place a creation returns. -/
theorem createNetPlayer_ok (E : Engine σ) (hlocal : s.localNetPlayer.isSome = true)
    (networkId : Int32) (position : Vec3) (defGlobalIndex : Int32) :
    ∃ s', s.createNetPlayer E networkId position defGlobalIndex = .ok s' := by
  simp only [createNetPlayer]
  split
  · exact ⟨_, rfl⟩
  · generalize hadded : (Session.mk _ _ _ _ _ _ _ _ : Session σ) = added
    have hmotion := (quiet_applyNetPlayerMovement E added networkId).trans
      (quiet_applyNetPlayerRotation E _ networkId)
    have hkept := hmotion.localNetPlayer
    have hstart : added.localNetPlayer = s.localNetPlayer := by
      rw [← hadded]
    split
    · rename_i hnone
      rw [← hkept.trans hstart, hnone] at hlocal
      cases hlocal
    · split
      · exact ⟨_, rfl⟩
      · exact ⟨_, rfl⟩

/-- The game after a player has gone. -/
def engineWithout (E : Engine σ) (s : Session σ) (player : PlayerPtr) : σ :=
  E.uninitialise (E.uninitCharacter s.engine player) player

/-- A `DestroyNetPlayer` that returns found no player or creature and did nothing, or dropped the
vector's first entry for the id. -/
theorem destroyNetPlayer_cases {networkId : Int32}
    (h : s.destroyNetPlayer E networkId = .ok s') :
    (s.getCreatureFromNetworkId E networkId = none ∧ s' = s) ∨
      ∃ player, E.getPlayer s.engine (s.getLocalIdFromNetworkId networkId) = some player ∧
        s'.localNetPlayer = s.localNetPlayer ∧ s'.network = s.network ∧
        s'.netPlayers = eraseNetPlayer networkId s.netPlayers ∧
        s'.engine = engineWithout E s player := by
  unfold destroyNetPlayer at h
  split at h
  · rename_i hplayer
    cases h
    exact Or.inl ⟨by simp [getCreatureFromNetworkId, getCreatureFromLocalId, hplayer], rfl⟩
  · rename_i player hplayer
    split at h
    · rename_i hcreature
      cases h
      exact Or.inl ⟨by simp [getCreatureFromNetworkId, getCreatureFromLocalId, hplayer,
        hcreature], rfl⟩
    · simp only at h
      -- The dereference of `localNetPlayer`, then the host's broadcast.
      split at h
      · cases h
      · split at h
        · cases h
          have hsend := quiet_sendToAllClientsExcept
            { s.removeCallbacks networkId with
              engine := E.uninitialise (E.uninitCharacter s.engine player) player
              netPlayers := eraseNetPlayer networkId s.netPlayers } networkId
            (destroyNetPlayerMessage networkId) .reliableOrdered
          exact Or.inr ⟨player, hplayer, hsend.localNetPlayer, hsend.network, hsend.netPlayers,
            hsend.engine⟩
        · cases h
          exact Or.inr ⟨player, hplayer, rfl, rfl, rfl, rfl⟩

/-- Without a creature nothing is removed and nobody is told. -/
theorem destroyNetPlayer_of_none {networkId : Int32}
    (hnone : s.getCreatureFromNetworkId E networkId = none) :
    s.destroyNetPlayer E networkId = .ok s := by
  unfold destroyNetPlayer
  split
  · rfl
  · rename_i player hplayer
    have hcreature : E.getPControlledCreature s.engine player = none := by
      simpa [getCreatureFromNetworkId, getCreatureFromLocalId, hplayer] using hnone
    rw [hcreature]

/-- With a local player in place a removal returns. -/
theorem destroyNetPlayer_ok (E : Engine σ) (hlocal : s.localNetPlayer.isSome = true)
    (networkId : Int32) : ∃ s', s.destroyNetPlayer E networkId = .ok s' := by
  unfold destroyNetPlayer
  split
  · exact ⟨_, rfl⟩
  · split
    · exact ⟨_, rfl⟩
    · simp only
      split
      · rename_i hnone
        have hgone : s.localNetPlayer = none := hnone
        rw [hgone] at hlocal
        cases hlocal
      · split <;> exact ⟨_, rfl⟩

/-- Whatever a `DestroyNetPlayer` that returns has done, the local player and the network are as
before. -/
theorem destroyNetPlayer_kept {networkId : Int32}
    (h : s.destroyNetPlayer E networkId = .ok s') :
    s'.localNetPlayer = s.localNetPlayer ∧ s'.network = s.network := by
  rcases destroyNetPlayer_cases h with ⟨_, hsame⟩ | ⟨_, _, hlocal, hnetwork, _⟩
  · rw [hsame]
    exact ⟨rfl, rfl⟩
  · exact ⟨hlocal, hnetwork⟩

/-- `DestroyNetPlayers` ends with an empty vector. -/
theorem netPlayers_destroyNetPlayers {rounds : Nat}
    (h : destroyNetPlayers E rounds s = .ok s') : s'.netPlayers = [] := by
  induction rounds generalizing s with
  | zero =>
    cases hlist : s.netPlayers with
    | nil =>
      rw [destroyNetPlayers_nil E hlist] at h
      exact Except.ok.inj h ▸ hlist
    | cons front rest =>
      rw [destroyNetPlayers_zero E hlist] at h
      cases h
  | succ rounds ih =>
    cases hlist : s.netPlayers with
    | nil =>
      rw [destroyNetPlayers_nil E hlist] at h
      exact Except.ok.inj h ▸ hlist
    | cons front rest =>
      rw [destroyNetPlayers_succ E hlist] at h
      split at h
      · cases h
      · exact ih h

theorem destroyNetPlayers_cases {rounds : Nat} (h : destroyNetPlayers E rounds s = .ok s') :
    s'.localNetPlayer = s.localNetPlayer ∧ s'.network = s.network ∧ s'.netPlayers = [] := by
  have hkept := destroyNetPlayers_rel
    (R := fun s s' => s'.localNetPlayer = s.localNetPlayer ∧ s'.network = s.network)
    (fun _ => ⟨rfl, rfl⟩) (fun h h' => ⟨h'.1.trans h.1, h'.2.trans h.2⟩) destroyNetPlayer_kept h
  exact ⟨hkept.1, hkept.2, netPlayers_destroyNetPlayers h⟩

theorem destroyLocalNetPlayer_cases (E : Engine σ) (s : Session σ) :
    ((s.destroyLocalNetPlayer E).localNetPlayer = s.localNetPlayer ∨
        (s.destroyLocalNetPlayer E).localNetPlayer = none) ∧
      (s.destroyLocalNetPlayer E).netPlayers = s.netPlayers ∧
      (s.destroyLocalNetPlayer E).network = s.network := by
  simp only [destroyLocalNetPlayer]
  split
  · exact ⟨Or.inl rfl, rfl, rfl⟩
  · split
    · exact ⟨Or.inl rfl, rfl, rfl⟩
    · exact ⟨Or.inr rfl, rfl, rfl⟩

/-! ### Connections that end -/

theorem removeConnection_cases {networkId : Int32}
    (h : s.removeConnection E networkId = .ok s') :
    ∃ t, s.destroyNetPlayer E networkId = .ok t ∧
      s' = { t with network := { t.network with
        connections := t.network.connections.eraseP fun connection =>
          connection.networkId == networkId } } := by
  unfold removeConnection at h
  split at h
  · cases h
  · rename_i hdestroyed
    cases h
    exact ⟨_, hdestroyed, rfl⟩

/-- A lost connection is removed; a client that has lost its host disconnects as well. -/
theorem handleLoss_cases {rounds : Nat} {packet : Packet}
    (h : s.handleLoss E rounds packet = .ok s') :
    let networkId := s.getNetworkIdFromAddress E packet.systemAddress
    ∃ t, s.removeConnection E networkId = .ok t ∧
      ((t.network.quitCallbacks && networkId == 0) = true ∧ t.disconnect E rounds = .ok s' ∨
        ¬ (t.network.quitCallbacks && networkId == 0) = true ∧ s' = t) := by
  intro networkId
  simp only [handleLoss] at h
  split at h
  · cases h
  · rename_i hremoved
    split at h
    · rename_i hquit
      exact ⟨_, hremoved, Or.inl ⟨hquit, h⟩⟩
    · rename_i hstays
      cases h
      exact ⟨_, hremoved, Or.inr ⟨hstays, rfl⟩⟩

/-- What `Network::Disconnect` does behind the loop over the net players. -/
def disconnected (E : Engine σ) (cleared : Session σ) : Session σ :=
  (removeSelf E { cleared with
    network := { cleared.network with connections := [] } }).clearSession

/-- The peer is shut down before the first net player goes. -/
theorem disconnect_cases {rounds : Nat} (h : s.disconnect E rounds = .ok s') :
    s.network.active = false ∧ s' = s ∨
      s.network.active = true ∧ ∃ cleared, s' = disconnected E cleared ∧
        destroyNetPlayers E rounds { s with network := { s.network with active := false } } =
          .ok cleared := by
  unfold disconnect at h
  split at h
  · rename_i hclosed
    cases h
    exact Or.inl ⟨by simpa using hclosed, rfl⟩
  · rename_i hopen
    simp only [removeConnections] at h
    split at h
    · cases h
    · rename_i hremoved
      split at hremoved
      · cases hremoved
      · rename_i cleared hcleared
        cases hremoved
        cases h
        exact Or.inr ⟨by simpa using hopen, cleared, rfl, hcleared⟩

theorem disconnected_effect (E : Engine σ) (cleared : Session σ) :
    ((disconnected E cleared).localNetPlayer = cleared.localNetPlayer ∨
        (disconnected E cleared).localNetPlayer = none) ∧
      (disconnected E cleared).netPlayers = cleared.netPlayers ∧
      (disconnected E cleared).network.active = cleared.network.active ∧
      (disconnected E cleared).network.connections = [] ∧
      (disconnected E cleared).calls = cleared.calls := by
  have hself := destroyLocalNetPlayer_cases E
    { cleared with network := { cleared.network with connections := [] } }
  have hcalls : ∀ t : Session σ, (t.destroyLocalNetPlayer E).calls = t.calls := by
    intro t
    simp only [destroyLocalNetPlayer]
    split
    · rfl
    · split <;> rfl
  refine ⟨hself.1, hself.2.1, ?_, ?_, hcalls _⟩
  · simp only [disconnected, removeSelf, clearSession, hself.2.2]
  · simp only [disconnected, removeSelf, clearSession, hself.2.2]

theorem inactive_of_disconnect {rounds : Nat} (h : s.disconnect E rounds = .ok s') :
    s'.network.active = false := by
  rcases disconnect_cases h with ⟨hclosed, rfl⟩ | ⟨_, cleared, rfl, hcleared⟩
  · exact hclosed
  · calc (disconnected E cleared).network.active
        = cleared.network.active := (disconnected_effect E cleared).2.2.1
      _ = false := by rw [(destroyNetPlayers_cases hcleared).2.1]

/-! ### Motion that arrives -/

/-- Assignments to a net player keep what they do not assign, all along the vector. -/
theorem map_updateNetPlayer {β : Type} (g : NetPlayer → β) {f : NetPlayer → NetPlayer}
    (hg : ∀ netPlayer, g (f netPlayer) = g netPlayer) (networkId : Int32)
    (netPlayers : List NetPlayer) :
    (updateNetPlayer networkId f netPlayers).map g = netPlayers.map g := by
  induction netPlayers with
  | nil => rfl
  | cons netPlayer rest ih =>
    by_cases hid : netPlayer.networkId = networkId <;> simp [updateNetPlayer, hid, hg, ih]

/-- A host passes the message on, and that is all the sending there is. -/
theorem spoke_passedOn (s : Session σ) (networkId : Int32) (bs : BitStream)
    (reliability : PacketReliability) :
    Spoke s (if s.isHost = true then s.sendToAllClientsExcept networkId bs reliability else s) := by
  split
  · exact spoke_sendToAllClientsExcept s networkId bs reliability
  · exact Spoke.refl s

theorem netPlayers_receiveNetPlayerMovement (s : Session σ) (networkId : Int32)
    (position acceleration : Vec3) :
    (s.receiveNetPlayerMovement networkId position acceleration).netPlayers =
      updateNetPlayer networkId (fun netPlayer => { netPlayer with
        movementAcceleration := acceleration, position := position }) s.netPlayers := by
  unfold receiveNetPlayerMovement
  simp only [(spoke_passedOn s networkId _ _).quiet.netPlayers]

theorem netPlayers_receiveNetPlayerRotation (s : Session σ) (networkId : Int32)
    (up forward : Vec3) :
    (s.receiveNetPlayerRotation networkId up forward).netPlayers =
      updateNetPlayer networkId (fun netPlayer => { netPlayer with up := up, forward := forward })
        s.netPlayers := by
  unfold receiveNetPlayerRotation
  simp only [(spoke_passedOn s networkId _ _).quiet.netPlayers]

theorem receiveNetPlayerMovement_ids (s : Session σ) (networkId : Int32)
    (position acceleration : Vec3) :
    let s' := s.receiveNetPlayerMovement networkId position acceleration
    s'.localNetPlayer = s.localNetPlayer ∧ s'.network = s.network ∧ s'.engine = s.engine ∧
      s'.netPlayers.map NetPlayer.ids = s.netPlayers.map NetPlayer.ids := by
  have hsent := (spoke_passedOn s networkId
    (motionMessage idPlayerMovement networkId position acceleration) .unreliableSequenced).quiet
  refine ⟨hsent.localNetPlayer, hsent.network, hsent.engine, ?_⟩
  rw [netPlayers_receiveNetPlayerMovement]
  exact map_updateNetPlayer NetPlayer.ids (by intro netPlayer; rfl) networkId s.netPlayers

theorem receiveNetPlayerRotation_ids (s : Session σ) (networkId : Int32) (up forward : Vec3) :
    let s' := s.receiveNetPlayerRotation networkId up forward
    s'.localNetPlayer = s.localNetPlayer ∧ s'.network = s.network ∧ s'.engine = s.engine ∧
      s'.netPlayers.map NetPlayer.ids = s.netPlayers.map NetPlayer.ids := by
  have hsent := (spoke_passedOn s networkId
    (motionMessage idPlayerRotation networkId up forward) .unreliableSequenced).quiet
  refine ⟨hsent.localNetPlayer, hsent.network, hsent.engine, ?_⟩
  rw [netPlayers_receiveNetPlayerRotation]
  exact map_updateNetPlayer NetPlayer.ids (by intro netPlayer; rfl) networkId s.netPlayers

end Changes

end Session
end Mod
end Crossover
