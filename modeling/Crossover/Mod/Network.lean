import Crossover.Lib.Fallible
import Crossover.Mod.NetPlayerManager

/-!
# Network — the mod's dispatcher and its session as a transition system

`Network::Update` takes the packets off the peer and hands them to the callbacks that
`NetMainGameComponent` registers, one of each kind.  `Session.step` adds what else happens to a
session: the hooks run the registered closures, the game changes on its own, the player asks to
disconnect.
-/

namespace Crossover
namespace Mod

open Wire

namespace Session

variable {σ : Type}

/-! ## Connections -/

/-- The first unused network id from 0 on. -/
def getFreeNetworkId (connections : List Connection) : Int32 :=
  FirstFree.search (fun networkId => decide (networkId ∈ connections.map Connection.networkId))
    (· + 1) connections.length 0

def getNetworkIdFromAddress (E : Engine σ) (s : Session σ) (address : SystemAddress) : Int32 :=
  let hostAddress := E.systemAddress s.network.settings.ip s.network.settings.port
  -- The configured host address is id 0, whatever the vector says.
  if address = hostAddress then 0
  else
    match s.network.connections.find? fun connection => connection.address == address with
    | some connection => connection.networkId
    | none => -1

def removeConnection (E : Engine σ) (s : Session σ) (networkId : Int32) :
    Except Fault (Session σ) :=
  match s.destroyNetPlayer E networkId with
  | .error fault => .error fault
  | .ok s =>
      let connections :=
        s.network.connections.eraseP fun connection => connection.networkId == networkId
      .ok { s with network := { s.network with connections := connections } }

def removeConnections (E : Engine σ) (rounds : Nat) (s : Session σ) :
    Except Fault (Session σ) :=
  match destroyNetPlayers E rounds s with
  | .error fault => .error fault
  | .ok s => .ok { s with network := { s.network with connections := [] } }

def removeSelf (E : Engine σ) (s : Session σ) : Session σ :=
  let s := s.destroyLocalNetPlayer E
  { s with network := { s.network with self := {} } }

def clearSession (s : Session σ) : Session σ :=
  let settings := { s.network.settings with ip := "", port := 0 }
  { s with network := { s.network with settings := settings } }

/-- `Network::Disconnect`; `peer->Shutdown` comes first, so nothing is sent any more. -/
def disconnect (E : Engine σ) (rounds : Nat) (s : Session σ) : Except Fault (Session σ) :=
  if !s.network.active then .ok s
  else
    -- `peer->Shutdown` first: the removals below find the peer inactive.
    let s := { s with network := { s.network with active := false } }
    match s.removeConnections E rounds with
    | .error fault => .error fault
    | .ok s => .ok (s.removeSelf E).clearSession

/-! ## Decoding -/

/-- `networkId` and `position` of an `ID_CREATE_LOCAL_NET_PLAYER`, from the current offset. -/
def readCreateLocalNetPlayer (bs : BitStream) : Int32 × Vec3 :=
  let networkId := bs.read (-1 : Int32)
  let position := networkId.2.read ({} : Vec3)
  (networkId.1, position.1)

/-- A record of `ID_CREATE_NET_PLAYER` and `ID_CREATE_NET_PLAYERS` and the stream behind it; the
definition index starts out unassigned. -/
def readCreateNetPlayer (unassigned : Int32) (bs : BitStream) :
    (Int32 × Int32 × Vec3) × BitStream :=
  let networkId := bs.read (-1 : Int32)
  let defGlobalIndex := networkId.2.read unassigned
  let position := defGlobalIndex.2.read ({} : Vec3)
  ((networkId.1, defGlobalIndex.1, position.1), position.2)

/-- The id and the two vectors of an `ID_PLAYER_MOVEMENT` or `ID_PLAYER_ROTATION`. -/
def readMotion (bs : BitStream) : Int32 × Vec3 × Vec3 :=
  let networkId := bs.read (-1 : Int32)
  let first := networkId.2.read ({} : Vec3)
  let second := first.2.read ({} : Vec3)
  (networkId.1, first.1, second.1)

/-- The stream a handler hands to its callback. -/
def payload (packet : Packet) : BitStream :=
  (BitStream.ofData packet.data).ignoreBytes 1

/-- The loop of the `CreateNetPlayers` callback. -/
def createNetPlayersLoop (E : Engine σ) :
    Nat → BitStream → Session σ → Except Fault (Session σ)
  | 0, _, s => .ok s
  | count + 1, bs, s =>
      let entry := readCreateNetPlayer (E.indeterminate s.engine) bs
      -- The loop runs up to the count, also past the end of the stream.
      match s.createNetPlayers E entry.1.1 entry.1.2.2 entry.1.2.1 with
      | .error fault => .error fault
      | .ok s => createNetPlayersLoop E count entry.2 s

/-! ## Handlers -/

def handleConnectionRequestAccepted (s : Session σ) (packet : Packet) : Session σ :=
  s.peerSend (BitStream.write {} idConnectionNotification).data .high .reliableOrdered
    packet.systemAddress

def handleConnectionNotification (E : Engine σ) (s : Session σ) (systemAddress : SystemAddress) :
    Except Fault (Session σ) :=
  let networkId := getFreeNetworkId s.network.connections
  let connection : Connection := { address := systemAddress, networkId := networkId }
  let connections := s.network.connections ++ [connection]
  -- No look at the address: a repeated notification adds a second connection.
  let s := { s with network := { s.network with connections := connections } }
  s.connectionNotification E networkId systemAddress

def handleCreateLocalNetPlayer (E : Engine σ) (s : Session σ) (packet : Packet) : Session σ :=
  let networkId := ((payload packet).read (-1 : Int32)).1
  let self : Connection := { address := s.network.boundAddress, networkId := networkId }
  let s := { s with network := { s.network with self := self } }
  -- The read pointer is reset before the callback, which reads the id once more.
  let fields := readCreateLocalNetPlayer (payload packet)
  s.createLocalNetPlayer E fields.1 fields.2

def handleCreateNetPlayer (E : Engine σ) (s : Session σ) (packet : Packet) :
    Except Fault (Session σ) :=
  let entry := readCreateNetPlayer (E.indeterminate s.engine) (payload packet)
  s.createNetPlayer E entry.1.1 entry.1.2.2 entry.1.2.1

def handleCreateNetPlayers (E : Engine σ) (s : Session σ) (packet : Packet) :
    Except Fault (Session σ) :=
  let count := (payload packet).read (0 : Int32)
  createNetPlayersLoop E count.1.toNatClampNeg count.2 s

def handleNetPlayerMovement (s : Session σ) (packet : Packet) : Session σ :=
  let fields := readMotion (payload packet)
  s.receiveNetPlayerMovement fields.1 fields.2.1 fields.2.2

def handleNetPlayerRotation (s : Session σ) (packet : Packet) : Session σ :=
  let fields := readMotion (payload packet)
  s.receiveNetPlayerRotation fields.1 fields.2.1 fields.2.2

/-- `HandleDisconnectionNotification` and `HandleConnectionLost`: both drop the connection, then
run the callback that `Connect` has registered. -/
def handleLoss (E : Engine σ) (rounds : Nat) (s : Session σ) (packet : Packet) :
    Except Fault (Session σ) :=
  let networkId := s.getNetworkIdFromAddress E packet.systemAddress
  match s.removeConnection E networkId with
  | .error fault => .error fault
  | .ok s =>
      -- The id comes from before the removal.
      if s.network.quitCallbacks && networkId == 0 then s.disconnect E rounds else .ok s

def handleDestroyNetPlayer (E : Engine σ) (s : Session σ) (packet : Packet) :
    Except Fault (Session σ) :=
  s.destroyNetPlayer E ((payload packet).read (-1 : Int32)).1

def handleConnectionAttemptFailed (E : Engine σ) (rounds : Nat) (s : Session σ) :
    Except Fault (Session σ) :=
  if s.network.quitCallbacks then s.disconnect E rounds else .ok s

/-- One round of `Update`; a peer that is not active delivers nothing. -/
def update (E : Engine σ) (rounds : Nat) (s : Session σ) (packet : Packet) :
    Except Fault (Session σ) :=
  if !s.network.active then .ok s
  else
    match packet.kind with
    | .connectionRequestAccepted => .ok (s.handleConnectionRequestAccepted packet)
    | .connectionNotification => s.handleConnectionNotification E packet.systemAddress
    | .createLocalNetPlayer => .ok (s.handleCreateLocalNetPlayer E packet)
    | .createNetPlayer => s.handleCreateNetPlayer E packet
    | .createNetPlayers => s.handleCreateNetPlayers E packet
    | .playerMovement => .ok (s.handleNetPlayerMovement packet)
    | .playerRotation => .ok (s.handleNetPlayerRotation packet)
    | .disconnectionNotification => s.handleLoss E rounds packet
    | .connectionLost => s.handleLoss E rounds packet
    | .destroyNetPlayer => s.handleDestroyNetPlayer E packet
    | .connectionAttemptFailed => s.handleConnectionAttemptFailed E rounds
    -- The rest is logged or ignored.
    | _ => .ok s

/-! ## Opening a session -/

/-- `Network::Host`, given whether `peer->Startup` succeeds. -/
def host (E : Engine σ) (s : Session σ) (port : UInt16) (startup : Bool) : Bool × Session σ :=
  let settings := { s.network.settings with port := port }
  let s := { s with network := { s.network with settings := settings } }
  if s.network.active then (false, s)
  else if !startup then (false, s)
  else
    let networkId := getFreeNetworkId s.network.connections
    let self : Connection := { address := s.network.boundAddress, networkId := networkId }
    let connections := s.network.connections ++ [self]
    let network := { s.network with active := true, self := self, connections := connections }
    -- The callback gets a stream that holds the id only, without a message id in front.
    let fields := readCreateLocalNetPlayer (BitStream.write {} networkId)
    (true, { s with network := network }.createLocalNetPlayer E fields.1 fields.2)

/-- `Network::Connect`, given whether `peer->Startup` and `peer->Connect` succeed. -/
def connect (s : Session σ) (ip : String) (port : UInt16) (startup connect : Bool) :
    Bool × Session σ :=
  let settings := { s.network.settings with ip := ip, port := port }
  let s := { s with network := { s.network with settings := settings } }
  if s.network.active then (false, s)
  else if !startup then (false, s)
  else (connect, { s with network := { s.network with active := true } })

/-! ## The hooks -/

/-- `HUpdateRegionLoad` behind the game's own part. -/
def updateRegionLoad (E : Engine σ) (s : Session σ) : Session σ :=
  s.updateRegionLoadCallbacks.foldl (fun s entry => s.runRegionLoadCallback E entry.2) s

/-- Closures run one after the other; the first fault ends the loop. -/
def runAll (run : Session σ → MotionCallback → Except Fault (Session σ)) :
    CallbackMap MotionCallback → Session σ → Except Fault (Session σ)
  | [], s => .ok s
  | entry :: rest, s =>
      match run s entry.2 with
      | .error fault => .error fault
      | .ok s => runAll run rest s

/-- `HResolveMovementAcceleration` behind the game's own part. -/
def resolveMovementAcceleration (E : Engine σ) (s : Session σ) : Except Fault (Session σ) :=
  runAll (runMovementCallback E) s.resolveMovementAccelerationCallbacks s

/-- `HResolveFacingDirection` behind the game's own part. -/
def resolveFacingDirection (E : Engine σ) (s : Session σ) : Except Fault (Session σ) :=
  runAll (runFacingCallback E) s.resolveFacingDirectionCallbacks s

end Session

/-! ## Runs of a session -/

/-- What a session is opened in: the game and what outlives a session, the hooks' maps of motion
closures.  `CWorld::updateRegionLoadCallbacks` is static as well; a session is opened with nothing
left in it. -/
structure Process (σ : Type) where
  engine : σ
  resolveMovementAccelerationCallbacks : CallbackMap MotionCallback := []
  resolveFacingDirectionCallbacks : CallbackMap MotionCallback := []
  boundAddress : SystemAddress

/-- How `NetMainGameComponent` opens a session. -/
inductive Opening
  | host (port : UInt16) (startup : Bool)
  | connect (ip : String) (port : UInt16) (startup connected : Bool)

/-- What happens to a session. -/
inductive SessionEvent (σ : Type)
  | packet (packet : Packet) (rounds : Nat)
  | updateRegionLoad
  | resolveMovementAcceleration
  | resolveFacingDirection
  | game (engine : σ)
  | disconnect (rounds : Nat)

namespace Session

variable {σ : Type}

/-- The new `Network` and `NetPlayerManager` of `NetMainGameComponent::Host` and `Connect`. -/
def made (process : Process σ) (quitCallbacks : Bool) : Session σ where
  engine := process.engine
  resolveMovementAccelerationCallbacks := process.resolveMovementAccelerationCallbacks
  resolveFacingDirectionCallbacks := process.resolveFacingDirectionCallbacks
  network := { boundAddress := process.boundAddress, quitCallbacks := quitCallbacks }

/-- `NetMainGameComponent::Host` and `NetMainGameComponent::Connect`. -/
def opened (E : Engine σ) (process : Process σ) : Opening → Session σ
  | .host port startup => ((made process false).host E port startup).2
  | .connect ip port startup connected =>
      ((made process true).connect ip port startup connected).2

def step (E : Engine σ) (s : Session σ) : SessionEvent σ → Except Fault (Session σ)
  | .packet packet rounds => s.update E rounds packet
  | .updateRegionLoad => .ok (s.updateRegionLoad E)
  | .resolveMovementAcceleration => s.resolveMovementAcceleration E
  | .resolveFacingDirection => s.resolveFacingDirection E
  | .game engine => .ok { s with engine := engine }
  | .disconnect rounds => s.disconnect E rounds

/-- The session after a list of events, or the fault that ends it. -/
abbrev run (E : Engine σ) (s : Session σ) (events : List (SessionEvent σ)) :
    Except Fault (Session σ) :=
  Fallible.run (step E) s events

end Session
end Mod
end Crossover
