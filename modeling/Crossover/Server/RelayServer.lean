import Crossover.Lib.FirstFree
import Crossover.Lib.Machine
import Crossover.Server.Config
import Crossover.Wire.Peer

/-!
# RelayServer — the dedicated server's session state and packet handlers

One definition for each method of `RelayServer`.  A handler returns the new state and the calls it
makes on the peer, in order; log lines are left out.  Clock readings (`NowMs()`) and the outcome of
opening the state file are inputs of a step.
-/

namespace Crossover
namespace Server

open Wire

/-- One connected game client.  `packetsIn` (`uint64_t`) and `rateWindowCount` (`int`) are naturals
here: they would wrap behind 2^64 packets of one client and behind 2^31 packets in one window of a
second, more than any network delivers. -/
structure Player where
  address : SystemAddress
  guid : UInt64
  networkId : Int32 := -1
  spawned : Bool := false
  defGlobalIndex : Int32 := 0
  position : Vec3 := {}
  up : Vec3 := {}
  forward : Vec3 := {}
  connectedAtMs : Int := 0
  lastPacketMs : Int := 0
  packetsIn : Nat := 0
  rateWindowStartMs : Int := 0
  rateWindowCount : Nat := 0
  rateLimited : Bool := false
  deriving DecidableEq, Repr

def kMaxPacketsPerSecond : Nat := 600
def kPersistIntervalMs : Int := 10000

structure RelayServer where
  config : Config
  /-- `peer_ != nullptr`. -/
  peer : Bool := false
  players : List Player := []
  startedAtMs : Int := 0
  lastPersistMs : Int := 0
  persistedAnchor : Vec3 := {}
  persistedAnchorKnown : Bool := false
  deriving DecidableEq, Repr

/-! ## The player vector -/

def findByAddress (players : List Player) (address : SystemAddress) : Option Player :=
  players.find? fun p => p.address == address

/-- Assignments through the pointer `FindByAddress` returns: the first record with the address. -/
def updateByAddress (address : SystemAddress) (f : Player → Player) : List Player → List Player
  | [] => []
  | p :: players =>
      if p.address = address then f p :: players else p :: updateByAddress address f players

/-- Lowest free id at or above 1. -/
def allocateNetworkId (players : List Player) : Int32 :=
  FirstFree.search (fun candidate => players.any fun p => p.networkId == candidate) (· + 1)
    players.length kFirstClientNetworkId

/-- The loop of `AllocateNetworkId` as it stands, without a bound. -/
abbrev AllocateNetworkIdLoop (players : List Player) : Int32 → Int32 → Prop :=
  FirstFree.Finds (· ∈ players.map Player.networkId) (· + 1)

def anchorPlayer (players : List Player) : Option Player :=
  players.foldl
    (fun best p =>
      if !p.spawned then best
      else
        -- Only a smaller id replaces the best so far; the first record of an id stays.
        match best with
        | none => some p
        | some b => if p.networkId < b.networkId then some p else best)
    none

namespace RelayServer

def spawnPositionFor (s : RelayServer) : Vec3 :=
  if s.config.spawnMode = .anchor then
    match anchorPlayer s.players with
    | some anchor => anchor.position
    | none =>
        -- A spawn configured by hand wins over the anchor of the last run.
        if s.persistedAnchorKnown && !s.config.spawnConfigured then s.persistedAnchor
        else s.config.spawn
  else s.config.spawn

end RelayServer

/-! ## Encoding -/

def createLocalNetPlayerMessage (networkId : Int32) (spawn : Vec3) : BitStream :=
  ((BitStream.write {} idCreateLocalNetPlayer).write networkId).write spawn

def createNetPlayerMessage (networkId defGlobalIndex : Int32) (position : Vec3) : BitStream :=
  (((BitStream.write {} idCreateNetPlayer).write networkId).write defGlobalIndex).write position

def createNetPlayersMessage (others : List Player) : BitStream :=
  others.foldl
    (fun bs p => ((bs.write p.networkId).write p.defGlobalIndex).write p.position)
    ((BitStream.write {} idCreateNetPlayers).write (Int32.ofNat others.length))

def destroyNetPlayerMessage (networkId : Int32) : BitStream :=
  (BitStream.write {} idDestroyNetPlayer).write networkId

/-- An `ID_PLAYER_MOVEMENT` or `ID_PLAYER_ROTATION`. -/
def motionMessage (messageId : UInt8) (networkId : Int32) (first second : Vec3) : BitStream :=
  (((BitStream.write {} messageId).write networkId).write first).write second

/-! ## Sending -/

def sendTo (address : SystemAddress) (bs : BitStream) (priority : PacketPriority)
    (reliability : PacketReliability) : PeerCall :=
  .send { data := bs.data, priority := priority, reliability := reliability, address := address }

/-- The players a relayed message goes to. -/
def recipients (players : List Player) (exceptNetworkId : Int32) : List Player :=
  players.filter fun p => !(p.networkId == exceptNetworkId || !p.spawned)

def relayExcept (players : List Player) (exceptNetworkId : Int32) (bs : BitStream)
    (priority : PacketPriority) (reliability : PacketReliability) : List PeerCall :=
  (recipients players exceptNetworkId).map fun p => sendTo p.address bs priority reliability

def sendRoster (players : List Player) (receiver : Player) : List PeerCall :=
  let others := recipients players receiver.networkId
  -- The first player in the world gets no roster at all, not an empty one.
  if others.isEmpty then []
  else [sendTo receiver.address (createNetPlayersMessage others) .high .reliableOrdered]

/-! ## Decoding client messages -/

/-- `claimedId`, `defGlobalIndex` and `position` of an `ID_CREATE_NET_PLAYER`. -/
def readCreateNetPlayer (packet : Packet) : Int32 × Int32 × Vec3 :=
  let bs := (BitStream.ofData packet.data).ignoreBytes 1
  let claimedId := bs.read (-1 : Int32)
  let defGlobalIndex := claimedId.2.read (0 : Int32)
  let position := defGlobalIndex.2.read ({} : Vec3)
  (claimedId.1, defGlobalIndex.1, position.1)

/-- The claimed id and the two vectors of an `ID_PLAYER_MOVEMENT` or `ID_PLAYER_ROTATION`. -/
def readMotion (packet : Packet) : Int32 × Vec3 × Vec3 :=
  let bs := (BitStream.ofData packet.data).ignoreBytes 1
  let claimedId := bs.read (-1 : Int32)
  let first := claimedId.2.read ({} : Vec3)
  let second := first.2.read ({} : Vec3)
  (claimedId.1, first.1, second.1)

/-! ## Handlers -/

namespace RelayServer

def handleConnectionNotification (s : RelayServer) (packet : Packet) (nowMs : Int) :
    RelayServer × List PeerCall :=
  -- A duplicate is not answered again.
  if (findByAddress s.players packet.systemAddress).isSome then (s, [])
  else if Int32.ofNat s.players.length ≥ s.config.maxPlayers then
    (s, [.closeConnection packet.systemAddress true])
  else
    let p : Player :=
      { address := packet.systemAddress
        guid := packet.guid
        networkId := allocateNetworkId s.players
        connectedAtMs := nowMs
        lastPacketMs := nowMs
        rateWindowStartMs := nowMs }
    let s := { s with players := s.players ++ [p] }
    -- The newcomer is in the vector by now; it has not spawned, so it is no anchor.
    let spawn := s.spawnPositionFor
    let bs := createLocalNetPlayerMessage p.networkId spawn
    (s, [sendTo p.address bs .high .reliableOrdered])

def handleCreateNetPlayer (s : RelayServer) (packet : Packet) : RelayServer × List PeerCall :=
  if packet.length < kSizeCreateNetPlayer then (s, [])
  else
    -- The claimed id (the first field) is only compared for a log line.
    let defGlobalIndex := (readCreateNetPlayer packet).2.1
    let position := (readCreateNetPlayer packet).2.2
    match findByAddress s.players packet.systemAddress with
    | none => (s, [])
    | some self =>
        -- A second packet is a spawn like the first: only the log line tells them apart.
        let players := updateByAddress packet.systemAddress
          (fun p => { p with
            spawned := true, defGlobalIndex := defGlobalIndex, position := position })
          s.players
        let out := createNetPlayerMessage self.networkId defGlobalIndex position
        ({ s with players := players },
          relayExcept players self.networkId out .high .reliableOrdered ++
            sendRoster players self)

/-- What `HandlePlayerMovement` and `HandlePlayerRotation` share: the minimum size, the message id
and the fields the two vectors are stored in. -/
def handleMotion (minSize : Nat) (messageId : UInt8) (store : Vec3 → Vec3 → Player → Player)
    (s : RelayServer) (packet : Packet) : RelayServer × List PeerCall :=
  if packet.length < minSize then (s, [])
  else
    let first := (readMotion packet).2.1
    let second := (readMotion packet).2.2
    match findByAddress s.players packet.systemAddress with
    | none => (s, [])
    | some self =>
        -- Motion ahead of the spawn is dropped without an answer.
        if !self.spawned then (s, [])
        else
          let players := updateByAddress packet.systemAddress (store first second) s.players
          let out := motionMessage messageId self.networkId first second
          ({ s with players := players },
            relayExcept players self.networkId out .high .unreliableSequenced)

def handlePlayerMovement : RelayServer → Packet → RelayServer × List PeerCall :=
  handleMotion kSizePlayerMovement idPlayerMovement
    (fun position _ p => { p with position := position })

def handlePlayerRotation : RelayServer → Packet → RelayServer × List PeerCall :=
  handleMotion kSizePlayerRotation idPlayerRotation
    (fun up forward p => { p with up := up, forward := forward })

/-- The `ID_DESTROY_NET_PLAYER` broadcast of `HandleDrop` and `Stop`. -/
def broadcastDestroy (players : List Player) (networkId : Int32) : List PeerCall :=
  relayExcept players networkId (destroyNetPlayerMessage networkId) .high .reliableOrdered

def handleDrop (s : RelayServer) (packet : Packet) : RelayServer × List PeerCall :=
  match findByAddress s.players packet.systemAddress with
  | none => (s, [])
  | some self =>
      -- `remove_if` goes by id; the farewell then goes to those who are left.
      let players := s.players.filter fun p => p.networkId != self.networkId
      ({ s with players := players },
        if self.spawned then broadcastDestroy players self.networkId else [])

/-! ## The flood guard -/

/-- The window part of `AcceptRate`: a packet a second or more after the window's start opens a new
one. -/
def rollRateWindow (player : Player) (nowMs : Int) : Player :=
  if nowMs - player.rateWindowStartMs ≥ 1000 then
    { player with rateWindowStartMs := nowMs, rateWindowCount := 0, rateLimited := false }
  else player

def acceptRate (player : Player) (nowMs : Int) : Player × Bool :=
  let player := rollRateWindow player nowMs
  -- A packet that is turned away counts too.
  let count := player.rateWindowCount + 1
  if count > kMaxPacketsPerSecond then
    ({ player with rateWindowCount := count, rateLimited := true }, false)
  else ({ player with rateWindowCount := count }, true)

/-! ## The rendezvous point -/

/-- `PersistAnchor`, given whether the state file could be opened for writing. -/
def persistAnchor (s : RelayServer) (writable : Bool) : RelayServer :=
  if s.config.stateFile = "" then s
  else
    match anchorPlayer s.players with
    -- With nobody in the world the last anchor stays.
    | none => s
    | some a =>
        if writable then { s with persistedAnchor := a.position, persistedAnchorKnown := true }
        else s

/-! ## Tick and Stop -/

/-- The `switch` of `Tick`. -/
def dispatch (s : RelayServer) (packet : Packet) (nowMs : Int) : RelayServer × List PeerCall :=
  match packet.kind with
  | .connectionNotification => s.handleConnectionNotification packet nowMs
  | .createNetPlayer => s.handleCreateNetPlayer packet
  | .playerMovement => s.handlePlayerMovement packet
  | .playerRotation => s.handlePlayerRotation packet
  | .disconnectionNotification => s.handleDrop packet
  | .connectionLost => s.handleDrop packet
  | _ => (s, [])

/-- `lastPacketMs`, `packetsIn` and the flood guard, for a packet from a known player. -/
def account (player : Player) (nowMs : Int) : Player × Bool :=
  acceptRate { player with lastPacketMs := nowMs, packetsIn := player.packetsIn + 1 } nowMs

/-- The bookkeeping at the head of `Tick`'s loop body; the second component is false where it says
`continue`. -/
def bookkeep (s : RelayServer) (packet : Packet) (tickMs : Int) : RelayServer × Bool :=
  match findByAddress s.players packet.systemAddress with
  -- A packet from a stranger is not counted, but it is dispatched.
  | none => (s, true)
  | some p =>
      let players :=
        updateByAddress packet.systemAddress (fun p => (account p tickMs).1) s.players
      ({ s with players := players }, (account p tickMs).2)

/-- One round of `Tick`'s receive loop. -/
def tickPacket (s : RelayServer) (packet : Packet) (tickMs handlerMs : Int) :
    RelayServer × List PeerCall :=
  let booked := s.bookkeep packet tickMs
  if booked.2 then booked.1.dispatch packet handlerMs else (booked.1, [])

/-- What `Tick` does after its receive loop. -/
def tickEnd (s : RelayServer) (nowMs persistMs : Int) (writable : Bool) : RelayServer :=
  if nowMs - s.lastPersistMs > kPersistIntervalMs then
    -- `NowMs()` is read a second time for the new `lastPersistMs_`.
    persistAnchor { s with lastPersistMs := persistMs } writable
  else s

def stop (s : RelayServer) (writable : Bool) : RelayServer × List PeerCall :=
  let s := s.persistAnchor writable
  ({ s with players := [], peer := false },
    -- The vector is cleared after the loop, so everyone hears of everyone else.
    (s.players.filter fun p => p.spawned).flatMap
        (fun p => broadcastDestroy s.players p.networkId) ++
      [.shutdown 500])

end RelayServer

/-! ## The server as a machine -/

/-- What the server process does next. -/
inductive Event
  | packet (packet : Packet) (tickMs handlerMs : Int)
  | tickEnd (nowMs persistMs : Int) (writable : Bool)
  | stop (writable : Bool)

/-- One event.  Without a peer `Tick` and `Stop` return at once. -/
def step (s : RelayServer) (event : Event) : RelayServer × List PeerCall :=
  if !s.peer then (s, [])
  else
    match event with
    | .packet packet tickMs handlerMs => s.tickPacket packet tickMs handlerMs
    | .tickEnd nowMs persistMs writable => (s.tickEnd nowMs persistMs writable, [])
    | .stop writable => s.stop writable

def server : Machine RelayServer Event PeerCall where
  step := step

@[simp] theorem server_step (s : RelayServer) (event : Event) :
    server.step s event = step s event :=
  rfl

/-- The state after `Start`, given what `LoadPersistedAnchor` read from the state file. -/
def start (config : Config) (nowMs : Int) (restored : Option Vec3) : RelayServer :=
  let restored := if config.stateFile = "" then none else restored
  { config := config
    peer := true
    startedAtMs := nowMs
    lastPersistMs := nowMs
    persistedAnchor := restored.getD {}
    persistedAnchorKnown := restored.isSome }

end Server
end Crossover
