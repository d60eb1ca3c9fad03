import Crossover.System.Announcements

/-!
# Hosting — what the mod sends as a host

The host answers a join with an id, announces a new player to every other connection, sends it a
roster that starts with the host's own hero, and reports a departure.  `Sends` is a method that
changes nothing but what has been sent; the lemmas below say what that is, as typed messages.
-/

namespace Crossover
namespace Mod
namespace Session

open Wire Server

variable {σ : Type}

/-- Nothing has changed but that these calls have been made. -/
structure Sends (s s' : Session σ) (sent : List PeerCall) : Prop extends Quiet s s' where
  calls : s'.calls = s.calls ++ sent

theorem Sends.refl (s : Session σ) : Sends s s [] :=
  ⟨Quiet.refl s, (List.append_nil _).symm⟩

theorem Sends.trans {s s' s'' : Session σ} {sent more : List PeerCall} (h : Sends s s' sent)
    (h' : Sends s' s'' more) : Sends s s'' (sent ++ more) :=
  ⟨h.toQuiet.trans h'.toQuiet, by rw [h'.calls, h.calls, List.append_assoc]⟩

/-- The message goes to every connection but one and the host's own. -/
def broadcastTo (connections : List Connection) (networkId : Int32) (m : Message) :
    List PeerCall :=
  (clientsExcept connections networkId).map fun connection => m.sendTo connection.address

section Sending

variable {s : Session σ} {bs : BitStream} {m : Message}

theorem sends_peerSend (hactive : s.network.active = true) (hdata : bs.data = m.bytes)
    (address : SystemAddress) :
    Sends s (s.peerSend bs.data .high m.reliability address) [m.sendTo address] := by
  refine ⟨quiet_peerSend s _ _ _ _, ?_⟩
  simp [peerSend, hactive, Message.sendTo, hdata]

theorem sends_sendToAllClientsExcept (hactive : s.network.active = true)
    (hdata : bs.data = m.bytes) (networkId : Int32) :
    Sends s (s.sendToAllClientsExcept networkId bs m.reliability)
      (broadcastTo s.network.connections networkId m) := by
  unfold sendToAllClientsExcept broadcastTo
  generalize clientsExcept s.network.connections networkId = receivers
  induction receivers generalizing s with
  | nil => exact Sends.refl s
  | cons connection rest ih =>
    have hfirst := sends_peerSend hactive hdata connection.address
    have hactive' : (s.peerSend bs.data .high m.reliability
        connection.address).network.active = true := by rw [hfirst.network, hactive]
    exact hfirst.trans (ih hactive')

theorem sends_sendToClient (hactive : s.network.active = true) (hdata : bs.data = m.bytes)
    {networkId : Int32} {connection : Connection}
    (hfind : s.network.connections.find? (fun connection =>
      connection.networkId == networkId && connection.address != unassignedSystemAddress) =
        some connection) :
    Sends s (s.sendToClient networkId bs m.reliability) [m.sendTo connection.address] := by
  simp only [sendToClient, hfind]
  exact sends_peerSend hactive hdata connection.address

end Sending

/-! ## The roster -/

def RosterEntry.key (entry : RosterEntry) : Int32 × Int32 :=
  (entry.networkId, entry.defGlobalIndex)

section Roster

variable {E : Engine σ} {Holds : σ → Int → Int32 → Prop} {s : Session σ} {l : LobbyListener}

theorem getCreatureFromNetworkId_of_held (hE : E.Lawful Holds) {networkId d : Int32}
    {localId : Int} (hlookup : s.getLocalIdFromNetworkId networkId = localId)
    (hheld : Holds s.engine localId d) :
    ∃ creature, s.getCreatureFromNetworkId E networkId = some creature ∧
      E.defGlobalIndex s.engine creature = d := by
  rcases hE.lookup _ _ _ hheld with ⟨player, creature, hplayer, hcreature, hdef⟩
  refine ⟨creature, ?_, hdef⟩
  simp [getCreatureFromNetworkId, getCreatureFromLocalId, hlookup, hplayer, hcreature]

/-- The records of players with a creature, in order. -/
theorem exists_roster (hE : E.Lawful Holds) {netPlayers : List NetPlayer}
    {table : List (Int32 × Int32)}
    (h : List.Forall₂ (HoldsEntry Holds s.engine) netPlayers table)
    (hlookup : ∀ p ∈ netPlayers, s.getLocalIdFromNetworkId p.networkId = p.localId) :
    ∃ entries : List RosterEntry, entries.map RosterEntry.key = table ∧ ∀ bs : BitStream,
      (netPlayers.foldl (fun bs netPlayer =>
        match s.getCreatureFromNetworkId E netPlayer.networkId with
        | none => bs
        | some creature => s.writeRosterEntry E bs netPlayer.networkId creature) bs).data =
          bs.data ++ entries.flatMap RosterEntry.bytes := by
  induction h with
  | nil => exact ⟨[], rfl, fun bs => (List.append_nil _).symm⟩
  | @cons netPlayer entry rest table hfirst _ ih =>
    rcases ih fun p hp => hlookup p (List.mem_cons_of_mem _ hp) with ⟨entries, hkeys, hdata⟩
    rcases getCreatureFromNetworkId_of_held hE (hlookup netPlayer List.mem_cons_self) hfirst.2 with
      ⟨creature, hcreature, hdef⟩
    let first : RosterEntry :=
      { networkId := netPlayer.networkId
        defGlobalIndex := E.defGlobalIndex s.engine creature
        position := E.getPos s.engine creature }
    refine ⟨first :: entries, ?_, ?_⟩
    · rw [List.map_cons, hkeys]
      congr 1
      exact Prod.ext hfirst.1 hdef
    · -- `continue` is never taken: every player has a creature.
      intro bs
      simp only [List.foldl_cons, hcreature, hdata]
      simp [writeRosterEntry, RosterEntry.bytes, first]

/-- The roster names the host's own hero and then everybody the host holds. -/
theorem sends_broadcastCreateNetPlayers (hE : E.Lawful Holds) (h : Follows Holds s l)
    (hdistinct : l.Distinct) (hown : l.own = some 0) (hactive : s.network.active = true)
    {networkId : Int32} {connection : Connection}
    (hfind : s.network.connections.find? (fun connection =>
      connection.networkId == networkId && connection.address != unassignedSystemAddress) =
        some connection) :
    ∃ d entries, entries.map RosterEntry.key = (0, d) :: l.table ∧
      Sends s (s.broadcastCreateNetPlayers E networkId)
        [(Message.createNetPlayers entries).sendTo connection.address] := by
  have havatars := oneAvatarPerId_of_follows h hdistinct
  rcases h.localNetPlayer with ⟨p, d, hp, hid, hheld⟩
  have hzero : p.networkId = 0 := Option.some.inj (hid.symm.trans hown)
  have hself : s.getLocalIdFromNetworkId p.networkId = p.localId :=
    havatars.lookup (p.networkId, p.localId) (by simp [players, hp])
  rcases getCreatureFromNetworkId_of_held hE hself hheld with ⟨creature, hcreature, hdef⟩
  have hlookup : ∀ q ∈ s.netPlayers, s.getLocalIdFromNetworkId q.networkId = q.localId := by
    intro q hq
    exact havatars.lookup q.ids (List.mem_append_right _ (List.mem_map_of_mem hq))
  rcases exists_roster hE h.netPlayers hlookup with ⟨entries, hkeys, hdata⟩
  let own : RosterEntry :=
    { networkId := p.networkId
      defGlobalIndex := E.defGlobalIndex s.engine creature
      position := E.getPos s.engine creature }
  -- The count is right, as no record is skipped.
  have hlength : entries.length = s.netPlayers.length := by
    have hmap := congrArg List.length hkeys
    rw [List.length_map] at hmap
    rw [hmap, h.netPlayers.length_eq]
  refine ⟨d, own :: entries, ?_, ?_⟩
  · rw [List.map_cons, hkeys]
    congr 1
    exact Prod.ext hzero hdef
  · simp only [broadcastCreateNetPlayers, hp, hcreature]
    apply sends_sendToClient (m := .createNetPlayers (own :: entries)) hactive _ hfind
    refine (hdata _).trans ?_
    simp [writeRosterEntry, Message.bytes, RosterEntry.bytes, own, hlength]

end Roster

/-! ## Methods of a host -/

section Methods

variable {E : Engine σ} {s s' : Session σ} {p : LocalNetPlayer}

/-- The new player is announced to the others; then it gets the roster. -/
theorem createNetPlayer_host (hactive : s.network.active = true)
    (hp : s.localNetPlayer = some p) (hzero : p.networkId = 0) {networkId defGlobalIndex : Int32}
    {position : Vec3} {player : PlayerPtr} (hplayer : newPlayer E s = some player)
    (h : s.createNetPlayer E networkId position defGlobalIndex = .ok s') :
    ∃ s₁, Quiet s₁ s' ∧
      s₁.calls = s.calls ++ broadcastTo s.network.connections networkId
        (.createNetPlayer networkId defGlobalIndex position) ∧
      s' = s₁.broadcastCreateNetPlayers E networkId := by
  rw [newPlayer] at hplayer
  simp only [createNetPlayer, hplayer] at h
  generalize hadded : (Session.mk _ _ _ _ _ _ _ _ : Session σ) = added at h
  have hpushed : added.localNetPlayer = some p ∧ added.network = s.network ∧
      added.calls = s.calls := by
    rw [← hadded]
    exact ⟨hp, rfl, rfl⟩
  have hmotion := (quiet_applyNetPlayerMovement E added networkId).trans
    (quiet_applyNetPlayerRotation E _ networkId)
  -- Registering the two closures sends nothing.
  have hcalls : ((added.applyNetPlayerMovement E networkId).applyNetPlayerRotation E
      networkId).calls = added.calls := by
    unfold applyNetPlayerRotation applyNetPlayerMovement
    split <;> split <;> rfl
  generalize (added.applyNetPlayerMovement E networkId).applyNetPlayerRotation E networkId = moved
    at h hmotion hcalls
  have hlocal := hmotion.localNetPlayer.trans hpushed.1
  have hnetwork := hmotion.network.trans hpushed.2.1
  simp only [hlocal, hzero, if_true] at h
  have hsends := sends_sendToAllClientsExcept (s := moved)
    (m := .createNetPlayer networkId defGlobalIndex position) (by rw [hnetwork, hactive])
    (show (createNetPlayerMessage networkId defGlobalIndex position).data = _ from rfl) networkId
  refine ⟨moved.broadcastCreateNetPlayer networkId defGlobalIndex position, ?_, ?_, ?_⟩
  · rw [← Except.ok.inj h]
    exact quiet_broadcastCreateNetPlayers E _ networkId
  · rw [← hnetwork]
    exact hsends.calls.trans (by rw [hcalls, hpushed.2.2])
  · exact (Except.ok.inj h).symm

theorem destroyNetPlayer_host (hactive : s.network.active = true)
    (hp : s.localNetPlayer = some p) (hzero : p.networkId = 0) {networkId : Int32}
    {creature : CreaturePtr} (hcreature : s.getCreatureFromNetworkId E networkId = some creature)
    (h : s.destroyNetPlayer E networkId = .ok s') :
    s'.calls = s.calls ++
      broadcastTo s.network.connections networkId (.destroyNetPlayer networkId) := by
  simp only [getCreatureFromNetworkId, getCreatureFromLocalId] at hcreature
  unfold destroyNetPlayer at h
  split at h
  · rename_i hplayer
    simp [hplayer] at hcreature
  · rename_i player hplayer
    simp only [hplayer] at hcreature
    -- The local player is still there when its id is read.
    have hremoved : (s.removeCallbacks networkId).localNetPlayer = some p := hp
    simp only [hcreature, hremoved, hzero, if_true] at h
    generalize hleft : (Session.mk _ _ _ _ _ _ _ _ : Session σ) = left at h
    have hkept : left.network = s.network ∧ left.calls = s.calls := by
      rw [← hleft]
      exact ⟨rfl, rfl⟩
    have hsends := sends_sendToAllClientsExcept (s := left) (m := .destroyNetPlayer networkId)
      (by rw [hkept.1, hactive])
      (show (destroyNetPlayerMessage networkId).data = _ from rfl) networkId
    rw [← Except.ok.inj h, ← hkept.1, ← hkept.2]
    exact hsends.calls

theorem receive_motion_host (hactive : s.network.active = true) (hhost : s.isHost = true)
    (networkId : Int32) (first second : Vec3) :
    (s.receiveNetPlayerMovement networkId first second).calls = s.calls ++
        broadcastTo s.network.connections networkId (.playerMovement networkId first second) ∧
      (s.receiveNetPlayerRotation networkId first second).calls = s.calls ++
        broadcastTo s.network.connections networkId (.playerRotation networkId first second) := by
  have hmovement := sends_sendToAllClientsExcept
    (m := .playerMovement networkId first second) hactive
    (show (motionMessage idPlayerMovement networkId first second).data = _ from rfl) networkId
  have hrotation := sends_sendToAllClientsExcept
    (m := .playerRotation networkId first second) hactive
    (show (motionMessage idPlayerRotation networkId first second).data = _ from rfl) networkId
  simp only [receiveNetPlayerMovement, receiveNetPlayerRotation, hhost, if_true]
  exact ⟨hmovement.calls, hrotation.calls⟩

/-- A new connection is assigned its id and told where the host's hero stands. -/
theorem connectionNotification_host (hactive : s.network.active = true)
    (hp : s.localNetPlayer = some p) {creature : CreaturePtr}
    (hcreature : s.getCreatureFromLocalId E p.localId = some creature) (networkId : Int32)
    (address : SystemAddress) :
    ∃ s', s.connectionNotification E networkId address = .ok s' ∧
      Sends s s' [(Message.createLocalNetPlayer networkId
        (E.getPos s.engine creature)).sendTo address] := by
  have hsends := sends_peerSend
    (m := .createLocalNetPlayer networkId (E.getPos s.engine creature)) hactive
    (show (((BitStream.write {} idCreateLocalNetPlayer).write networkId).write
      (E.getPos s.engine creature)).data = _ from rfl) address
  refine ⟨_, ?_, hsends⟩
  simp only [connectionNotification, hp, hcreature]
  rfl

end Methods

end Session
end Mod
end Crossover
