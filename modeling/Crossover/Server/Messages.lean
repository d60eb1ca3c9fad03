import Crossover.Server.RelayServer

/-!
# Messages — what each handler sends, as typed messages

Everything the server sends is the encoding of one `Message`, at high priority and with the
reliability its kind calls for.  The equations below say so handler by handler; later modules use
them instead of the byte streams.
-/

namespace Crossover

namespace Wire

/-- Motion is sent unreliable sequenced, everything else reliable ordered. -/
def Message.reliability : Message → PacketReliability
  | .playerMovement .. => .unreliableSequenced
  | .playerRotation .. => .unreliableSequenced
  | _ => .reliableOrdered

/-- Sending a message to an address. -/
def Message.sendTo (m : Message) (address : SystemAddress) : PeerCall :=
  .send { data := m.bytes, priority := .high, reliability := m.reliability, address := address }

/-- The count of a roster fits the `int` that carries it. -/
def Message.Countable : Message → Prop
  | .createNetPlayers entries => entries.length < 2 ^ 31
  | _ => True

theorem Message.Countable.parse_bytes {m : Message} (h : m.Countable) :
    Message.parse m.bytes = some m := by
  apply Message.parse_bytes
  intro entries hm
  subst hm
  exact h

/-- What is sent to whom can be read off the call. -/
theorem Message.eq_of_sendTo {m n : Message} (hm : m.Countable) (hn : n.Countable)
    {a b : SystemAddress} (h : m.sendTo a = n.sendTo b) : m = n ∧ a = b := by
  simp only [Message.sendTo, PeerCall.send.injEq, Send.mk.injEq] at h
  have hparse := congrArg Message.parse h.1
  rw [hm.parse_bytes, hn.parse_bytes] at hparse
  exact ⟨Option.some.inj hparse, h.2.2.2⟩

end Wire

namespace Server

open Wire

def Player.rosterEntry (p : Player) : RosterEntry :=
  { networkId := p.networkId, defGlobalIndex := p.defGlobalIndex, position := p.position }

/-- The message goes to every spawned player but one. -/
def relayMessage (players : List Player) (exceptId : Int32) (m : Message) : List PeerCall :=
  (recipients players exceptId).map fun p => m.sendTo p.address

def rosterMessage (players : List Player) (exceptId : Int32) : Message :=
  .createNetPlayers ((recipients players exceptId).map Player.rosterEntry)

/-! ## Sending -/

section Sending

variable {players : List Player}

theorem relayExcept_eq {bs : BitStream} {m : Message} (hdata : bs.data = m.bytes)
    (exceptId : Int32) :
    relayExcept players exceptId bs .high m.reliability = relayMessage players exceptId m := by
  simp [relayExcept, relayMessage, sendTo, Message.sendTo, hdata]

theorem data_foldl_roster (l : List Player) (bs : BitStream) :
    (l.foldl (fun bs p => ((bs.write p.networkId).write p.defGlobalIndex).write p.position)
      bs).data = bs.data ++ (l.map Player.rosterEntry).flatMap RosterEntry.bytes := by
  induction l generalizing bs with
  | nil => simp
  | cons p l ih => simp [ih, RosterEntry.bytes, Player.rosterEntry]

theorem sendRoster_eq (receiver : Player) :
    sendRoster players receiver =
      if recipients players receiver.networkId = [] then []
      else [(rosterMessage players receiver.networkId).sendTo receiver.address] := by
  by_cases hothers : recipients players receiver.networkId = []
  · simp [sendRoster, hothers]
  · simp [sendRoster, hothers, sendTo, createNetPlayersMessage, rosterMessage, Message.sendTo,
      Message.bytes, Message.reliability, data_foldl_roster]

theorem broadcastDestroy_eq (networkId : Int32) :
    RelayServer.broadcastDestroy players networkId =
      relayMessage players networkId (.destroyNetPlayer networkId) :=
  relayExcept_eq (m := .destroyNetPlayer networkId) rfl networkId

end Sending

/-! ## Decoding -/

/-- The fields of a long enough `ID_CREATE_NET_PLAYER` behind the claimed id. -/
theorem readCreateNetPlayer_eq {packet : Packet} (hlen : kSizeCreateNetPlayer ≤ packet.length) :
    readCreateNetPlayer packet =
      (decode ((packet.data.drop 1).take 4), decode ((packet.data.drop 5).take 4),
        decode ((packet.data.drop 9).take 12)) := by
  have hlen' : 21 ≤ packet.data.length := hlen
  simp only [readCreateNetPlayer, BitStream.ofData, BitStream.ignoreBytes]
  rw [BitStream.read_of_le _ (by simp; omega)]
  simp only [size_int]
  rw [BitStream.read_of_le _ (by simp; omega)]
  simp only [size_int]
  rw [BitStream.read_of_le _ (by simpa using hlen')]
  simp

/-- The fields of a long enough motion packet. -/
theorem readMotion_eq {packet : Packet} (hlen : kSizePlayerMovement ≤ packet.length) :
    readMotion packet =
      (decode ((packet.data.drop 1).take 4), decode ((packet.data.drop 5).take 12),
        decode ((packet.data.drop 17).take 12)) := by
  have hlen' : 29 ≤ packet.data.length := hlen
  simp only [readMotion, BitStream.ofData, BitStream.ignoreBytes]
  rw [BitStream.read_of_le _ (by simp; omega)]
  simp only [size_int]
  rw [BitStream.read_of_le _ (by simp; omega)]
  simp only [size_vec3]
  rw [BitStream.read_of_le _ (by simpa using hlen')]
  simp

/-! ## Handlers -/

section Handlers

variable {s : RelayServer} {packet : Packet}

/-- The record a join creates. -/
def newPlayer (s : RelayServer) (packet : Packet) (nowMs : Int) : Player :=
  { address := packet.systemAddress
    guid := packet.guid
    networkId := allocateNetworkId s.players
    connectedAtMs := nowMs
    lastPacketMs := nowMs
    rateWindowStartMs := nowMs }

/-- What `HandleCreateNetPlayer` assigns. -/
def Player.spawnAs (defGlobalIndex : Int32) (position : Vec3) (p : Player) : Player :=
  { p with spawned := true, defGlobalIndex := defGlobalIndex, position := position }

theorem handleConnectionNotification_known {self : Player}
    (hfind : findByAddress s.players packet.systemAddress = some self) (nowMs : Int) :
    s.handleConnectionNotification packet nowMs = (s, []) := by
  simp [RelayServer.handleConnectionNotification, hfind]

theorem handleConnectionNotification_full
    (hfind : findByAddress s.players packet.systemAddress = none)
    (hfull : Int32.ofNat s.players.length ≥ s.config.maxPlayers) (nowMs : Int) :
    s.handleConnectionNotification packet nowMs =
      (s, [.closeConnection packet.systemAddress true]) := by
  simp [RelayServer.handleConnectionNotification, hfind, hfull]

theorem handleConnectionNotification_join
    (hfind : findByAddress s.players packet.systemAddress = none)
    (hroom : ¬ Int32.ofNat s.players.length ≥ s.config.maxPlayers) (nowMs : Int) :
    s.handleConnectionNotification packet nowMs =
      ({ s with players := s.players ++ [newPlayer s packet nowMs] },
        [Message.sendTo (.createLocalNetPlayer (allocateNetworkId s.players)
          ({ s with players := s.players ++ [newPlayer s packet nowMs] }).spawnPositionFor)
          packet.systemAddress]) := by
  simp [RelayServer.handleConnectionNotification, hfind, hroom, newPlayer, sendTo,
    createLocalNetPlayerMessage, Message.sendTo, Message.bytes, Message.reliability]

theorem handleCreateNetPlayer_short (hlen : packet.length < kSizeCreateNetPlayer) :
    s.handleCreateNetPlayer packet = (s, []) := by
  simp [RelayServer.handleCreateNetPlayer, hlen]

theorem handleCreateNetPlayer_unknown
    (hfind : findByAddress s.players packet.systemAddress = none) :
    s.handleCreateNetPlayer packet = (s, []) := by
  simp [RelayServer.handleCreateNetPlayer, hfind]

theorem handleCreateNetPlayer_eq {self : Player} (hlen : kSizeCreateNetPlayer ≤ packet.length)
    (hfind : findByAddress s.players packet.systemAddress = some self) :
    s.handleCreateNetPlayer packet =
      let defGlobalIndex := (readCreateNetPlayer packet).2.1
      let position := (readCreateNetPlayer packet).2.2
      let players :=
        updateByAddress packet.systemAddress (Player.spawnAs defGlobalIndex position) s.players
      ({ s with players := players },
        relayMessage players self.networkId
            (.createNetPlayer self.networkId defGlobalIndex position) ++
          sendRoster players self) := by
  have hrelay : ∀ players defGlobalIndex position,
      relayExcept players self.networkId
          (createNetPlayerMessage self.networkId defGlobalIndex position) .high .reliableOrdered =
        relayMessage players self.networkId
          (.createNetPlayer self.networkId defGlobalIndex position) :=
    fun players defGlobalIndex position =>
      relayExcept_eq (m := .createNetPlayer self.networkId defGlobalIndex position) rfl _
  simp only [RelayServer.handleCreateNetPlayer, Nat.not_lt.2 hlen, if_false, hfind, hrelay]
  rfl

theorem handleMotion_short {minSize : Nat} {messageId : UInt8}
    {store : Vec3 → Vec3 → Player → Player} (hlen : packet.length < minSize) :
    s.handleMotion minSize messageId store packet = (s, []) := by
  simp [RelayServer.handleMotion, hlen]

theorem handleMotion_unspawned {minSize : Nat} {messageId : UInt8}
    {store : Vec3 → Vec3 → Player → Player}
    (hfind : ∀ self, findByAddress s.players packet.systemAddress = some self →
      self.spawned = false) :
    s.handleMotion minSize messageId store packet = (s, []) := by
  cases hself : findByAddress s.players packet.systemAddress with
  | none => simp [RelayServer.handleMotion, hself]
  | some self => simp [RelayServer.handleMotion, hself, hfind self hself]

/-- A motion packet of a spawned player: `m` is the message relayed for it. -/
theorem handleMotion_eq {minSize : Nat} {messageId : UInt8} {self : Player} {m : Message}
    (store : Vec3 → Vec3 → Player → Player)
    (hlen : minSize ≤ packet.length)
    (hfind : findByAddress s.players packet.systemAddress = some self)
    (hspawned : self.spawned = true) (hrel : m.reliability = .unreliableSequenced)
    (hm : m.bytes = encode messageId ++ encode self.networkId ++
      encode (readMotion packet).2.1 ++ encode (readMotion packet).2.2) :
    s.handleMotion minSize messageId store packet =
      let players := updateByAddress packet.systemAddress
        (store (readMotion packet).2.1 (readMotion packet).2.2) s.players
      ({ s with players := players }, relayMessage players self.networkId m) := by
  have hrelay : ∀ players, relayExcept players self.networkId
      (motionMessage messageId self.networkId (readMotion packet).2.1 (readMotion packet).2.2)
        .high .unreliableSequenced =
        relayMessage players self.networkId m := by
    intro players
    rw [← hrel]
    apply relayExcept_eq
    simp [motionMessage, hm]
  simp [RelayServer.handleMotion, Nat.not_lt.2 hlen, hfind, hspawned, hrelay]

theorem handleDrop_unknown (hfind : findByAddress s.players packet.systemAddress = none) :
    s.handleDrop packet = (s, []) := by
  simp [RelayServer.handleDrop, hfind]

theorem handleDrop_eq {self : Player}
    (hfind : findByAddress s.players packet.systemAddress = some self) :
    s.handleDrop packet =
      let players := s.players.filter fun p => p.networkId != self.networkId
      ({ s with players := players },
        if self.spawned then
          relayMessage players self.networkId (.destroyNetPlayer self.networkId)
        else []) := by
  simp [RelayServer.handleDrop, hfind, broadcastDestroy_eq]

end Handlers

/-! ## Everything sent is a message -/

/-- A call that sends, if it does, the encoding of one message, and not a join request. -/
def SendsMessage (call : PeerCall) : Prop :=
  ∀ send, call = .send send →
    ∃ m : Message, m.Countable ∧ call = m.sendTo send.address ∧ m ≠ .connectionNotification

theorem sendsMessage_sendTo {m : Message} (hm : m.Countable) (hne : m ≠ .connectionNotification)
    (a : SystemAddress) : SendsMessage (m.sendTo a) := by
  intro send hsend
  refine ⟨m, hm, ?_, hne⟩
  cases hsend
  rfl

theorem sendsMessage_relayMessage {players : List Player} {m : Message} (hm : m.Countable)
    (hne : m ≠ .connectionNotification) (exceptId : Int32) :
    ∀ call ∈ relayMessage players exceptId m, SendsMessage call := by
  intro call hcall
  rcases List.mem_map.1 hcall with ⟨p, _, rfl⟩
  exact sendsMessage_sendTo hm hne p.address

theorem countable_rosterMessage {players : List Player} (hlen : players.length < 2 ^ 31)
    (id : Int32) : (rosterMessage players id).Countable := by
  simp only [rosterMessage, Message.Countable, List.length_map]
  exact Nat.lt_of_le_of_lt (List.length_filter_le _ _) hlen

theorem sendsMessage_sendRoster {players : List Player} (hlen : players.length < 2 ^ 31)
    (receiver : Player) : ∀ call ∈ sendRoster players receiver, SendsMessage call := by
  intro call hcall
  rw [sendRoster_eq] at hcall
  split at hcall
  · cases hcall
  · obtain rfl := List.mem_singleton.1 hcall
    exact sendsMessage_sendTo (countable_rosterMessage hlen _) (by simp [rosterMessage]) _

end Server
end Crossover
