import Crossover.Lib.Binary32
import Crossover.Lib.FirstFree
import Crossover.Mod.Engine

/-!
# NetPlayerManager — a game process between `Host` or `Connect` and `Disconnect`

The state is `Network` and `NetPlayerManager` with the game around them and the hooks' static
callback maps; a registered closure is kept as the values it captures.  Every call on the peer is
appended to `calls`.  A method that dereferences `localNetPlayer` without a test stops with
`Fault.nullLocalNetPlayer` when there is none, a closure in the hooks with a fault of its own.
-/

namespace Crossover
namespace Mod

open Wire

structure NetPlayer where
  networkId : Int32 := -1
  localId : Int := -1
  movementAcceleration : Vec3 := {}
  position : Vec3 := {}
  /-- `Up` and `Forward` of `rhSet`. -/
  up : Vec3 := {}
  forward : Vec3 := {}
  deriving DecidableEq, Repr

structure LocalNetPlayer where
  networkId : Int32 := -1
  localId : Int := -1
  deriving DecidableEq, Repr

structure Connection where
  address : SystemAddress := unassignedSystemAddress
  networkId : Int32 := -1
  deriving DecidableEq, Repr

structure Settings where
  ip : String := "127.0.0.1"
  port : UInt16 := 60000
  slots : Int32 := 4
  deriving DecidableEq, Repr

structure Network where
  /-- `peer->IsActive()`. -/
  active : Bool := false
  /-- `peer->GetMyBoundAddress()`. -/
  boundAddress : SystemAddress := unassignedSystemAddress
  settings : Settings := {}
  self : Connection := {}
  connections : List Connection := []
  /-- `NetMainGameComponent::Connect` has registered the callbacks that disconnect. -/
  quitCallbacks : Bool := false
  deriving DecidableEq, Repr

/-- The closures put into `resolveMovementAccelerationCallbacks` and
`resolveFacingDirectionCallbacks`: the local player's send, the net players' apply. -/
inductive MotionCallback
  | broadcast (networkId : Int32) (creature : CreaturePtr)
  | apply (networkId : Int32) (creature : CreaturePtr)
  deriving DecidableEq, Repr

/-- The closure `BroadcastCreateLocalNetPlayer` registers. -/
structure RegionLoadCallback where
  networkId : Int32
  defGlobalIndex : Int32
  position : Vec3
  deriving DecidableEq, Repr

structure Session (σ : Type) where
  engine : σ
  resolveMovementAccelerationCallbacks : CallbackMap MotionCallback := []
  resolveFacingDirectionCallbacks : CallbackMap MotionCallback := []
  updateRegionLoadCallbacks : CallbackMap RegionLoadCallback := []
  network : Network := {}
  localNetPlayer : Option LocalNetPlayer := none
  netPlayers : List NetPlayer := []
  calls : List PeerCall := []

inductive Fault
  /-- `localNetPlayer->` in a method, with no local player. -/
  | nullLocalNetPlayer
  /-- `localNetPlayer->` in a motion closure, with no local player. -/
  | nullInClosure
  /-- The loop of `DestroyNetPlayers` has not ended within the given number of rounds. -/
  | unfinished
  deriving DecidableEq, Repr

/-- `std::to_string` behind the hook's prefix. -/
def movementKey (networkId : Int32) : String :=
  "ResolveMovementAcceleration" ++ toString networkId.toInt

def facingKey (networkId : Int32) : String :=
  "ResolveFacingDirection" ++ toString networkId.toInt

def regionLoadKey : String :=
  "BroadcastCreateLocalNetPlayer"

namespace Session

variable {σ : Type}

/-! ## Network: sending -/

/-- `peer->Send`, which does nothing on a peer that is not active. -/
def peerSend (s : Session σ) (data : List UInt8) (priority : PacketPriority)
    (reliability : PacketReliability) (address : SystemAddress) : Session σ :=
  if s.network.active then
    { s with calls := s.calls ++ [.send { data, priority, reliability, address }] }
  else s

def sendToHost (E : Engine σ) (s : Session σ) (bs : BitStream)
    (reliability : PacketReliability := .reliableOrdered) : Session σ :=
  s.peerSend bs.data .high reliability
    (E.systemAddress s.network.settings.ip s.network.settings.port)

def sendToClient (s : Session σ) (networkId : Int32) (bs : BitStream)
    (reliability : PacketReliability := .reliableOrdered) : Session σ :=
  match s.network.connections.find? fun connection =>
      connection.networkId == networkId && connection.address != unassignedSystemAddress with
  | none => s
  | some connection => s.peerSend bs.data .high reliability connection.address

/-- The connections `SendToAllClientsExcept` sends to. -/
def clientsExcept (connections : List Connection) (networkId : Int32) : List Connection :=
  connections.filter fun connection =>
    -- Id 0 is the host's own entry in its vector.
    connection.networkId != networkId && connection.networkId != 0 &&
      connection.address != unassignedSystemAddress

def sendToAllClientsExcept (s : Session σ) (networkId : Int32) (bs : BitStream)
    (reliability : PacketReliability := .reliableOrdered) : Session σ :=
  (clientsExcept s.network.connections networkId).foldl
    (fun s connection => s.peerSend bs.data .high reliability connection.address) s

/-! ## Lookups -/

def getCreatureFromLocalId (E : Engine σ) (s : Session σ) (localId : Int) : Option CreaturePtr :=
  match E.getPlayer s.engine localId with
  | none => none
  | some player => E.getPControlledCreature s.engine player

def getLocalIdFromNetworkId (s : Session σ) (networkId : Int32) : Int :=
  let inNetPlayers :=
    match s.netPlayers.find? fun netPlayer => netPlayer.networkId == networkId with
    | some netPlayer => netPlayer.localId
    | none => -1
  match s.localNetPlayer with
  | some localNetPlayer =>
      -- The local player is asked first, before any net player with the same id.
      if localNetPlayer.networkId = networkId then localNetPlayer.localId else inNetPlayers
  | none => inNetPlayers

def getNetworkIdFromLocalId (s : Session σ) (localId : Int) : Int32 :=
  let inNetPlayers :=
    match s.netPlayers.find? fun netPlayer => netPlayer.localId == localId with
    | some netPlayer => netPlayer.networkId
    | none => -1
  match s.localNetPlayer with
  | some localNetPlayer =>
      if localNetPlayer.localId = localId then localNetPlayer.networkId else inNetPlayers
  | none => inNetPlayers

def getCreatureFromNetworkId (E : Engine σ) (s : Session σ) (networkId : Int32) :
    Option CreaturePtr :=
  s.getCreatureFromLocalId E (s.getLocalIdFromNetworkId networkId)

/-- The local ids in use, the local player's first. -/
def localIds (s : Session σ) : List Int :=
  s.localNetPlayer.toList.map LocalNetPlayer.localId ++ s.netPlayers.map NetPlayer.localId

/-- The first unused local id from 0 on. -/
def getFreeLocalId (s : Session σ) : Int :=
  FirstFree.search (fun localId => decide (localId ∈ s.localIds)) (· + 1) s.localIds.length 0

/-! ## Motion -/

def applyNetPlayerMovement (E : Engine σ) (s : Session σ) (networkId : Int32) : Session σ :=
  match s.getCreatureFromNetworkId E networkId with
  | none => s
  | some creature =>
      -- The closure captures the creature, not the id to look it up again.
      { s with
        resolveMovementAccelerationCallbacks := s.resolveMovementAccelerationCallbacks.assign
          (movementKey networkId) (.apply networkId creature) }

def applyNetPlayerRotation (E : Engine σ) (s : Session σ) (networkId : Int32) : Session σ :=
  match s.getCreatureFromNetworkId E networkId with
  | none => s
  | some creature =>
      { s with
        resolveFacingDirectionCallbacks := s.resolveFacingDirectionCallbacks.assign
          (facingKey networkId) (.apply networkId creature) }

def broadcastLocalNetPlayerMovement (E : Engine σ) (s : Session σ) (networkId : Int32) :
    Session σ :=
  match s.getCreatureFromNetworkId E networkId with
  | none => s
  | some creature =>
      { s with
        resolveMovementAccelerationCallbacks := s.resolveMovementAccelerationCallbacks.assign
          (movementKey networkId) (.broadcast networkId creature) }

def broadcastLocalNetPlayerRotation (E : Engine σ) (s : Session σ) (networkId : Int32) :
    Session σ :=
  match s.getCreatureFromNetworkId E networkId with
  | none => s
  | some creature =>
      { s with
        resolveFacingDirectionCallbacks := s.resolveFacingDirectionCallbacks.assign
          (facingKey networkId) (.broadcast networkId creature) }

/-- An `ID_PLAYER_MOVEMENT` or `ID_PLAYER_ROTATION`. -/
def motionMessage (messageId : UInt8) (networkId : Int32) (first second : Vec3) : BitStream :=
  (((BitStream.write {} messageId).write networkId).write first).write second

/-- Whether the local player is the host's. -/
def isHost (s : Session σ) : Bool :=
  match s.localNetPlayer with
  | some localNetPlayer => localNetPlayer.networkId == 0
  | none => false

/-- The assignment to the first net player with an id. -/
def updateNetPlayer (networkId : Int32) (f : NetPlayer → NetPlayer) :
    List NetPlayer → List NetPlayer
  | [] => []
  | netPlayer :: rest =>
      if netPlayer.networkId = networkId then f netPlayer :: rest
      else netPlayer :: updateNetPlayer networkId f rest

def receiveNetPlayerMovement (s : Session σ) (networkId : Int32)
    (remotePosition movementAcceleration : Vec3) : Session σ :=
  let s :=
    -- The host relays before it looks the player up: a message for nobody goes out too.
    if s.isHost then
      s.sendToAllClientsExcept networkId
        (motionMessage idPlayerMovement networkId remotePosition movementAcceleration)
        .unreliableSequenced
    else s
  { s with
    netPlayers := updateNetPlayer networkId
      (fun netPlayer => { netPlayer with
        movementAcceleration := movementAcceleration, position := remotePosition })
      s.netPlayers }

def receiveNetPlayerRotation (s : Session σ) (networkId : Int32) (up forward : Vec3) :
    Session σ :=
  let s :=
    if s.isHost then
      s.sendToAllClientsExcept networkId (motionMessage idPlayerRotation networkId up forward)
        .unreliableSequenced
    else s
  { s with
    netPlayers := updateNetPlayer networkId
      (fun netPlayer => { netPlayer with up := up, forward := forward }) s.netPlayers }

/-- The send of a broadcast closure, to the clients or to the host. -/
def sendMotion (E : Engine σ) (s : Session σ) (networkId : Int32) (bs : BitStream) :
    Except Fault (Session σ) :=
  match s.localNetPlayer with
  | none => .error .nullInClosure
  | some localNetPlayer =>
      if localNetPlayer.networkId = 0 then
        .ok (s.sendToAllClientsExcept networkId bs .unreliableSequenced)
      else .ok (s.sendToHost E bs .unreliableSequenced)

/-- `driftSq`, in floats. -/
def driftSq (remotePosition position : Vec3) : UInt32 :=
  let dx := Binary32.sub remotePosition.x position.x
  let dy := Binary32.sub remotePosition.y position.y
  let dz := Binary32.sub remotePosition.z position.z
  Binary32.add (Binary32.add (Binary32.mul dx dx) (Binary32.mul dy dy)) (Binary32.mul dz dz)

/-- `driftSq > 1`. -/
def drifted (remotePosition position : Vec3) : Bool :=
  Binary32.lt 0x3F800000 (driftSq remotePosition position)

/-- A closure of `resolveMovementAccelerationCallbacks`. -/
def runMovementCallback (E : Engine σ) (s : Session σ) :
    MotionCallback → Except Fault (Session σ)
  | .broadcast networkId creature =>
      s.sendMotion E networkId (motionMessage idPlayerMovement networkId
        (E.getPos s.engine creature) (E.movementAcceleration s.engine creature))
  | .apply networkId creature =>
      match s.netPlayers.find? fun netPlayer => netPlayer.networkId == networkId with
      | none => .ok s
      | some netPlayer =>
          let engine := E.setMovementAcceleration s.engine creature netPlayer.movementAcceleration
          -- The creature is moved when it has drifted; its position is read after the assignment.
          if drifted netPlayer.position (E.getPos engine creature) then
            .ok { s with engine := E.setPosition engine creature netPlayer.position }
          else .ok { s with engine := engine }

/-- A closure of `resolveFacingDirectionCallbacks`. -/
def runFacingCallback (E : Engine σ) (s : Session σ) :
    MotionCallback → Except Fault (Session σ)
  | .broadcast networkId creature =>
      s.sendMotion E networkId (motionMessage idPlayerRotation networkId
        (E.rhUp s.engine creature) (E.rhForward s.engine creature))
  | .apply networkId creature =>
      match s.netPlayers.find? fun netPlayer => netPlayer.networkId == networkId with
      | none => .ok s
      | some netPlayer =>
          .ok { s with engine := E.setRHSet s.engine creature netPlayer.up netPlayer.forward }

/-! ## Announcing -/

def createNetPlayerMessage (networkId defGlobalIndex : Int32) (position : Vec3) : BitStream :=
  (((BitStream.write {} idCreateNetPlayer).write networkId).write defGlobalIndex).write position

def destroyNetPlayerMessage (networkId : Int32) : BitStream :=
  (BitStream.write {} idDestroyNetPlayer).write networkId

def broadcastCreateLocalNetPlayer (s : Session σ) (networkId defGlobalIndex : Int32)
    (position : Vec3) : Session σ :=
  { s with
    updateRegionLoadCallbacks := s.updateRegionLoadCallbacks.assign regionLoadKey
      { networkId := networkId, defGlobalIndex := defGlobalIndex, position := position } }

/-- The closure of `BroadcastCreateLocalNetPlayer`. -/
def runRegionLoadCallback (E : Engine σ) (s : Session σ) (callback : RegionLoadCallback) :
    Session σ :=
  if E.regionLoadStatus s.engine ≠ .notLoadingRegion then s
  else
    -- It runs once: the erasure comes before the send.
    let s :=
      { s with updateRegionLoadCallbacks := s.updateRegionLoadCallbacks.erase regionLoadKey }
    s.sendToHost E
      (createNetPlayerMessage callback.networkId callback.defGlobalIndex callback.position)

def broadcastCreateNetPlayer (s : Session σ) (networkId defGlobalIndex : Int32)
    (position : Vec3) : Session σ :=
  s.sendToAllClientsExcept networkId (createNetPlayerMessage networkId defGlobalIndex position)

def broadcastDestroyNetPlayer (s : Session σ) (networkId : Int32) : Session σ :=
  s.sendToAllClientsExcept networkId (destroyNetPlayerMessage networkId)

/-- A record of the roster: the id, then what the game says about the creature. -/
def writeRosterEntry (E : Engine σ) (s : Session σ) (bs : BitStream) (networkId : Int32)
    (creature : CreaturePtr) : BitStream :=
  ((bs.write networkId).write (E.defGlobalIndex s.engine creature)).write
    (E.getPos s.engine creature)

/-- The records of the net players; one whose creature is missing is skipped. -/
def writeNetPlayers (E : Engine σ) (s : Session σ) (bs : BitStream) : BitStream :=
  s.netPlayers.foldl
    (fun bs netPlayer =>
      match s.getCreatureFromNetworkId E netPlayer.networkId with
      | none => bs
      | some creature => s.writeRosterEntry E bs netPlayer.networkId creature)
    bs

def broadcastCreateNetPlayers (E : Engine σ) (s : Session σ) (networkId : Int32) : Session σ :=
  -- The count takes in players that `writeNetPlayers` then skips.
  let count := s.netPlayers.length + (if s.localNetPlayer.isSome then 1 else 0)
  let bs := (BitStream.write {} idCreateNetPlayers).write (Int32.ofNat count)
  match s.localNetPlayer with
  | none => s.sendToClient networkId (s.writeNetPlayers E bs)
  | some localNetPlayer =>
      match s.getCreatureFromNetworkId E localNetPlayer.networkId with
      -- Without the host's own creature no roster goes out.
      | none => s
      | some creature =>
          s.sendToClient networkId
            (s.writeNetPlayers E (s.writeRosterEntry E bs localNetPlayer.networkId creature))

/-! ## Lifecycle -/

def teleportLocalNetPlayerToHost (E : Engine σ) (s : Session σ) (networkId : Int32)
    (position : Vec3) : Session σ :=
  match s.getCreatureFromNetworkId E networkId with
  | none => s
  | some creature =>
      let defGlobalIndex := E.defGlobalIndex s.engine creature
      let facingAngleXY := E.facingAngleXY s.engine creature
      let s := s.broadcastCreateLocalNetPlayer networkId defGlobalIndex position
      { s with engine := E.setAsLoadingRegion s.engine position facingAngleXY }

def createLocalNetPlayer (E : Engine σ) (s : Session σ) (networkId : Int32) (position : Vec3) :
    Session σ :=
  let localId := s.getFreeLocalId
  match s.getCreatureFromLocalId E localId with
  | none => s
  | some _ =>
      let s := { s with localNetPlayer := some { networkId := networkId, localId := localId } }
      let s := s.broadcastLocalNetPlayerMovement E networkId
      let s := s.broadcastLocalNetPlayerRotation E networkId
      -- The host stays where it is; a client is sent to the host's position.
      if networkId ≠ 0 then s.teleportLocalNetPlayerToHost E networkId position else s

def createNetPlayer (E : Engine σ) (s : Session σ) (networkId : Int32) (position : Vec3)
    (defGlobalIndex : Int32) : Except Fault (Session σ) :=
  let localId := s.getFreeLocalId
  -- The player is created before it is asked for, so it may exist without a net player.
  let s := { s with engine := E.createPlayer s.engine localId }
  match E.getPlayer s.engine localId with
  | none => .ok s
  | some player =>
      let netPlayer : NetPlayer := { networkId := networkId, localId := localId }
      -- `push_back` without a look at the ids already there.
      let s := { s with netPlayers := s.netPlayers ++ [netPlayer] }
      let made := E.create s.engine defGlobalIndex position localId
      let s := { s with engine := E.setControlledCreature made.1 player made.2 }
      let s := s.applyNetPlayerMovement E networkId
      let s := s.applyNetPlayerRotation E networkId
      -- Only here is `localNetPlayer` dereferenced; everything above has happened by then.
      match s.localNetPlayer with
      | none => .error .nullLocalNetPlayer
      | some localNetPlayer =>
          if localNetPlayer.networkId = 0 then
            .ok ((s.broadcastCreateNetPlayer networkId defGlobalIndex position)
              |>.broadcastCreateNetPlayers E networkId)
          else .ok s

def createNetPlayers (E : Engine σ) (s : Session σ) (networkId : Int32) (position : Vec3)
    (defGlobalIndex : Int32) : Except Fault (Session σ) :=
  match s.localNetPlayer with
  | none => .error .nullLocalNetPlayer
  | some localNetPlayer =>
      -- An entry for the receiver itself and one for a known id are skipped.
      if networkId ≠ localNetPlayer.networkId ∧ s.getLocalIdFromNetworkId networkId = -1 then
        s.createNetPlayer E networkId position defGlobalIndex
      else .ok s

/-- The two callbacks an id's players have in the hooks. -/
def removeCallbacks (s : Session σ) (networkId : Int32) : Session σ :=
  { s with
    resolveMovementAccelerationCallbacks :=
      s.resolveMovementAccelerationCallbacks.erase (movementKey networkId)
    resolveFacingDirectionCallbacks :=
      s.resolveFacingDirectionCallbacks.erase (facingKey networkId) }

def destroyLocalNetPlayer (E : Engine σ) (s : Session σ) : Session σ :=
  match s.localNetPlayer with
  | none => s
  | some localNetPlayer =>
      let networkId := localNetPlayer.networkId
      match s.getCreatureFromLocalId E (s.getLocalIdFromNetworkId networkId) with
      -- Without a creature the local player stays.
      | none => s
      | some _ => { s.removeCallbacks networkId with localNetPlayer := none }

/-- The vector without its first entry for an id. -/
def eraseNetPlayer (networkId : Int32) (netPlayers : List NetPlayer) : List NetPlayer :=
  netPlayers.eraseP fun netPlayer => netPlayer.networkId == networkId

def destroyNetPlayer (E : Engine σ) (s : Session σ) (networkId : Int32) :
    Except Fault (Session σ) :=
  match E.getPlayer s.engine (s.getLocalIdFromNetworkId networkId) with
  | none => .ok s
  | some player =>
      match E.getPControlledCreature s.engine player with
      | none => .ok s
      | some _ =>
          -- The entry goes only from here on: a player without a creature keeps it.
          let s := s.removeCallbacks networkId
          let s := { s with
            engine := E.uninitialise (E.uninitCharacter s.engine player) player
            netPlayers := eraseNetPlayer networkId s.netPlayers }
          match s.localNetPlayer with
          | none => .error .nullLocalNetPlayer
          | some localNetPlayer =>
              if localNetPlayer.networkId = 0 then .ok (s.broadcastDestroyNetPlayer networkId)
              else .ok s

/-- The loop of `DestroyNetPlayers`, for at most `rounds` rounds. -/
def destroyNetPlayers (E : Engine σ) : Nat → Session σ → Except Fault (Session σ)
  | rounds, s =>
      match s.netPlayers, rounds with
      | [], _ => .ok s
      -- The source's loop has no bound; a front entry that is not removed keeps it going.
      | _ :: _, 0 => .error .unfinished
      | front :: _, rounds + 1 =>
          match s.destroyNetPlayer E front.networkId with
          | .error fault => .error fault
          | .ok s => destroyNetPlayers E rounds s

/-! ## Session -/

def connectionNotification (E : Engine σ) (s : Session σ) (networkId : Int32)
    (systemAddress : SystemAddress) : Except Fault (Session σ) :=
  match s.localNetPlayer with
  | none => .error .nullLocalNetPlayer
  | some localNetPlayer =>
      match s.getCreatureFromLocalId E localNetPlayer.localId with
      | none => .ok s
      | some creature =>
          let bs := ((BitStream.write {} idCreateLocalNetPlayer).write networkId).write
            (E.getPos s.engine creature)
          .ok (s.peerSend bs.data .high .reliableOrdered systemAddress)

end Session

end Mod
end Crossover
