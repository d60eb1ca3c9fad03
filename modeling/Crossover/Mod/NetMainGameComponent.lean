import Crossover.Mod.Network

/-!
# NetMainGameComponent — who owns a session, and when

`NetMainGameComponent` owns the `Network` and the `NetPlayerManager` of a session and hands the
engine's events on to them.  Here every `network->` and `netPlayerManager->` looks at its owner
first, also where a closure registered by `SetupNetworkCallbacks` or `Connect` makes the call from
inside of `Network`; without an object behind it the call stops with a fault of its own.

Main results:

* with both objects there, the methods of `Network` do what they do to a `Session`
  (`networkUpdate_eq`, `networkDisconnect_eq`, `networkHost_eq`);
* the owners hold an object both or neither, over any events (`paired_step`);
* no call goes through a null owner exactly when every shutdown finds a session
  (`life_cycle_iff`).
-/

namespace Crossover
namespace Mod

open Wire

structure NetMainGameComponent (σ : Type) where
  /-- `if (network)`. -/
  network : Bool := false
  /-- `if (netPlayerManager)`. -/
  netPlayerManager : Bool := false
  /-- `*network` and `*netPlayerManager` with the game process around them. -/
  session : Session σ

inductive ComponentFault
  /-- `network->` without a network. -/
  | nullNetwork
  /-- `netPlayerManager->` without a manager. -/
  | nullNetPlayerManager
  /-- What a method of the two objects stops with. -/
  | session (fault : Fault)
  deriving DecidableEq, Repr

/-- What an update meets: the keys pressed since the last one, what is typed in at the prompts, the
answers of a new peer and the packets it receives. -/
structure UpdateInput where
  numpad1 : Bool := false
  numpad2 : Bool := false
  numpad3 : Bool := false
  ip : String := "127.0.0.1"
  port : UInt16 := 60000
  boundAddress : SystemAddress := unassignedSystemAddress
  startup : Bool := true
  connected : Bool := true
  packets : List Packet := []
  /-- For the loops of `DestroyNetPlayers`. -/
  rounds : Nat := 0

/-- What the engine calls.  In between the game and its other hooks do as they like to what the
owners point to; they do not know the owners. -/
inductive EngineEvent (σ : Type)
  | postInit
  | update (input : UpdateInput)
  | shutdown (rounds : Nat)
  | game (session : Session σ)

namespace NetMainGameComponent

variable {σ : Type}

/-! ## Calls through the owners -/

/-- An assignment to the fields of `*network`. -/
def withNetwork (c : NetMainGameComponent σ) (network : Network) : NetMainGameComponent σ :=
  { c with session := { c.session with network := network } }

/-- What a method has made of the session, or its fault. -/
def store (c : NetMainGameComponent σ) :
    Except Fault (Session σ) → Except ComponentFault (NetMainGameComponent σ)
  | .error fault => .error (.session fault)
  | .ok s => .ok { c with session := s }

/-- `network->`. -/
def viaNetwork (c : NetMainGameComponent σ)
    (method : NetMainGameComponent σ → Except ComponentFault (NetMainGameComponent σ)) :
    Except ComponentFault (NetMainGameComponent σ) :=
  if c.network then method c else .error .nullNetwork

/-- `netPlayerManager->`, as in the registered closures. -/
def viaNetPlayerManager (c : NetMainGameComponent σ)
    (method : Session σ → Except Fault (Session σ)) :
    Except ComponentFault (NetMainGameComponent σ) :=
  if c.netPlayerManager then c.store (method c.session) else .error .nullNetPlayerManager

/-! ## Network, with its callbacks -/

def removeConnection (E : Engine σ) (c : NetMainGameComponent σ) (networkId : Int32) :
    Except ComponentFault (NetMainGameComponent σ) :=
  match c.viaNetPlayerManager fun s => s.destroyNetPlayer E networkId with
  | .error fault => .error fault
  | .ok c =>
      let connections :=
        c.session.network.connections.eraseP fun connection => connection.networkId == networkId
      .ok (c.withNetwork { c.session.network with connections := connections })

def removeConnections (E : Engine σ) (rounds : Nat) (c : NetMainGameComponent σ) :
    Except ComponentFault (NetMainGameComponent σ) :=
  match c.viaNetPlayerManager fun s => s.destroyNetPlayers E rounds with
  | .error fault => .error fault
  | .ok c => .ok (c.withNetwork { c.session.network with connections := [] })

def removeSelf (E : Engine σ) (c : NetMainGameComponent σ) :
    Except ComponentFault (NetMainGameComponent σ) :=
  match c.viaNetPlayerManager fun s => .ok (s.destroyLocalNetPlayer E) with
  | .error fault => .error fault
  | .ok c => .ok (c.withNetwork { c.session.network with self := {} })

/-- `Network::Disconnect`. -/
def networkDisconnect (E : Engine σ) (rounds : Nat) (c : NetMainGameComponent σ) :
    Except ComponentFault (NetMainGameComponent σ) :=
  if !c.session.network.active then .ok c
  else
    match (c.withNetwork { c.session.network with active := false }).removeConnections E rounds with
    | .error fault => .error fault
    | .ok c =>
        match c.removeSelf E with
        | .error fault => .error fault
        | .ok c => .ok { c with session := c.session.clearSession }

/-- The loop of the `CreateNetPlayers` callback. -/
def createNetPlayersLoop (E : Engine σ) :
    Nat → BitStream → NetMainGameComponent σ → Except ComponentFault (NetMainGameComponent σ)
  | 0, _, c => .ok c
  | count + 1, bs, c =>
      let entry := Session.readCreateNetPlayer (E.indeterminate c.session.engine) bs
      match c.viaNetPlayerManager fun s =>
          s.createNetPlayers E entry.1.1 entry.1.2.2 entry.1.2.1 with
      | .error fault => .error fault
      | .ok c => createNetPlayersLoop E count entry.2 c

def handleConnectionNotification (E : Engine σ) (c : NetMainGameComponent σ)
    (systemAddress : SystemAddress) : Except ComponentFault (NetMainGameComponent σ) :=
  let networkId := Session.getFreeNetworkId c.session.network.connections
  let connection : Connection := { address := systemAddress, networkId := networkId }
  let connections := c.session.network.connections ++ [connection]
  (c.withNetwork { c.session.network with connections := connections }).viaNetPlayerManager
    fun s => s.connectionNotification E networkId systemAddress

def handleCreateLocalNetPlayer (E : Engine σ) (c : NetMainGameComponent σ) (packet : Packet) :
    Except ComponentFault (NetMainGameComponent σ) :=
  let networkId := ((Session.payload packet).read (-1 : Int32)).1
  let self : Connection := { address := c.session.network.boundAddress, networkId := networkId }
  let fields := Session.readCreateLocalNetPlayer (Session.payload packet)
  (c.withNetwork { c.session.network with self := self }).viaNetPlayerManager
    fun s => .ok (s.createLocalNetPlayer E fields.1 fields.2)

def handleCreateNetPlayer (E : Engine σ) (c : NetMainGameComponent σ) (packet : Packet) :
    Except ComponentFault (NetMainGameComponent σ) :=
  let entry :=
    Session.readCreateNetPlayer (E.indeterminate c.session.engine) (Session.payload packet)
  c.viaNetPlayerManager fun s => s.createNetPlayer E entry.1.1 entry.1.2.2 entry.1.2.1

def handleCreateNetPlayers (E : Engine σ) (c : NetMainGameComponent σ) (packet : Packet) :
    Except ComponentFault (NetMainGameComponent σ) :=
  let count := (Session.payload packet).read (0 : Int32)
  c.createNetPlayersLoop E count.1.toNatClampNeg count.2

def handleNetPlayerMovement (c : NetMainGameComponent σ) (packet : Packet) :
    Except ComponentFault (NetMainGameComponent σ) :=
  let fields := Session.readMotion (Session.payload packet)
  c.viaNetPlayerManager fun s =>
    .ok (s.receiveNetPlayerMovement fields.1 fields.2.1 fields.2.2)

def handleNetPlayerRotation (c : NetMainGameComponent σ) (packet : Packet) :
    Except ComponentFault (NetMainGameComponent σ) :=
  let fields := Session.readMotion (Session.payload packet)
  c.viaNetPlayerManager fun s =>
    .ok (s.receiveNetPlayerRotation fields.1 fields.2.1 fields.2.2)

/-- `HandleDisconnectionNotification` and `HandleConnectionLost`, with the closure that `Connect`
has registered. -/
def handleLoss (E : Engine σ) (rounds : Nat) (c : NetMainGameComponent σ) (packet : Packet) :
    Except ComponentFault (NetMainGameComponent σ) :=
  let networkId := c.session.getNetworkIdFromAddress E packet.systemAddress
  match c.removeConnection E networkId with
  | .error fault => .error fault
  | .ok c =>
      if c.session.network.quitCallbacks && networkId == 0 then
        c.viaNetwork (networkDisconnect E rounds)
      else .ok c

def handleDestroyNetPlayer (E : Engine σ) (c : NetMainGameComponent σ) (packet : Packet) :
    Except ComponentFault (NetMainGameComponent σ) :=
  c.viaNetPlayerManager fun s =>
    s.destroyNetPlayer E ((Session.payload packet).read (-1 : Int32)).1

def handleConnectionAttemptFailed (E : Engine σ) (rounds : Nat) (c : NetMainGameComponent σ) :
    Except ComponentFault (NetMainGameComponent σ) :=
  if c.session.network.quitCallbacks then c.viaNetwork (networkDisconnect E rounds) else .ok c

/-- One round of `Network::Update`. -/
def handlePacket (E : Engine σ) (rounds : Nat) (c : NetMainGameComponent σ) (packet : Packet) :
    Except ComponentFault (NetMainGameComponent σ) :=
  if !c.session.network.active then .ok c
  else
    match packet.kind with
    | .connectionRequestAccepted =>
        .ok { c with session := c.session.handleConnectionRequestAccepted packet }
    | .connectionNotification => c.handleConnectionNotification E packet.systemAddress
    | .createLocalNetPlayer => c.handleCreateLocalNetPlayer E packet
    | .createNetPlayer => c.handleCreateNetPlayer E packet
    | .createNetPlayers => c.handleCreateNetPlayers E packet
    | .playerMovement => c.handleNetPlayerMovement packet
    | .playerRotation => c.handleNetPlayerRotation packet
    | .disconnectionNotification => c.handleLoss E rounds packet
    | .connectionLost => c.handleLoss E rounds packet
    | .destroyNetPlayer => c.handleDestroyNetPlayer E packet
    | .connectionAttemptFailed => c.handleConnectionAttemptFailed E rounds
    | _ => .ok c

/-- `Network::Update`; a callback that disconnects leaves nothing to receive. -/
def networkUpdate (E : Engine σ) (rounds : Nat) (packets : List Packet)
    (c : NetMainGameComponent σ) : Except ComponentFault (NetMainGameComponent σ) :=
  Fallible.run (handlePacket E rounds) c packets

/-- `Network::Host`; the component does not look at what it returns. -/
def networkHost (E : Engine σ) (port : UInt16) (startup : Bool) (c : NetMainGameComponent σ) :
    Except ComponentFault (NetMainGameComponent σ) :=
  let settings := { c.session.network.settings with port := port }
  let c := c.withNetwork { c.session.network with settings := settings }
  if c.session.network.active then .ok c
  else if !startup then .ok c
  else
    let networkId := Session.getFreeNetworkId c.session.network.connections
    let self : Connection := { address := c.session.network.boundAddress, networkId := networkId }
    let connections := c.session.network.connections ++ [self]
    let network :=
      { c.session.network with active := true, self := self, connections := connections }
    let fields := Session.readCreateLocalNetPlayer (BitStream.write {} networkId)
    (c.withNetwork network).viaNetPlayerManager
      fun s => .ok (s.createLocalNetPlayer E fields.1 fields.2)

/-- `Network::Connect`, which runs no callback. -/
def networkConnect (ip : String) (port : UInt16) (startup connected : Bool)
    (c : NetMainGameComponent σ) : Except ComponentFault (NetMainGameComponent σ) :=
  .ok { c with session := (c.session.connect ip port startup connected).2 }

/-! ## The component -/

/-- What a new session is made in. -/
def process (c : NetMainGameComponent σ) (input : UpdateInput) : Process σ where
  engine := c.session.engine
  resolveMovementAccelerationCallbacks := c.session.resolveMovementAccelerationCallbacks
  resolveFacingDirectionCallbacks := c.session.resolveFacingDirectionCallbacks
  boundAddress := input.boundAddress

/-- The two `make_unique`s of `Host` and `Connect`, and the callbacks registered behind them. -/
def makeOwned (c : NetMainGameComponent σ) (input : UpdateInput) (quitCallbacks : Bool) :
    NetMainGameComponent σ where
  network := true
  netPlayerManager := true
  session := Session.made (c.process input) quitCallbacks

def host (E : Engine σ) (input : UpdateInput) (c : NetMainGameComponent σ) :
    Except ComponentFault (NetMainGameComponent σ) :=
  (c.makeOwned input false).viaNetwork (networkHost E input.port input.startup)

def connect (input : UpdateInput) (c : NetMainGameComponent σ) :
    Except ComponentFault (NetMainGameComponent σ) :=
  (c.makeOwned input true).viaNetwork
    (networkConnect input.ip input.port input.startup input.connected)

/-- The two resets; `ClearNetworkCallbacks` in front of them tests `network` itself. -/
def disconnect (c : NetMainGameComponent σ) : NetMainGameComponent σ :=
  { c with network := false, netPlayerManager := false }

def selection (E : Engine σ) (input : UpdateInput) (c : NetMainGameComponent σ) :
    Except ComponentFault (NetMainGameComponent σ) :=
  if c.network then
    if input.numpad3 then c.viaNetwork (networkDisconnect E input.rounds) else .ok c
  else if input.numpad1 then c.host E input
  else if input.numpad2 then c.connect input
  else .ok c

/-- The end of an update and of a shutdown: an inactive peer ends the session. -/
def release (c : NetMainGameComponent σ) : NetMainGameComponent σ :=
  if c.network && !c.session.network.active then c.disconnect else c

def handleMainGameComponentUpdate (E : Engine σ) (input : UpdateInput)
    (c : NetMainGameComponent σ) : Except ComponentFault (NetMainGameComponent σ) :=
  match c.selection E input with
  | .error fault => .error fault
  | .ok c =>
      if !c.network then .ok c
      else
        match c.viaNetwork (networkUpdate E input.rounds input.packets) with
        | .error fault => .error fault
        | .ok c => .ok c.release

def handleMainGameComponentShutdown (E : Engine σ) (rounds : Nat) (c : NetMainGameComponent σ) :
    Except ComponentFault (NetMainGameComponent σ) :=
  -- `network` is tested behind this call only.
  match c.viaNetwork (networkDisconnect E rounds) with
  | .error fault => .error fault
  | .ok c => .ok c.release

def step (E : Engine σ) (c : NetMainGameComponent σ) :
    EngineEvent σ → Except ComponentFault (NetMainGameComponent σ)
  -- `HandleMainGameComponentPostInit` prints the options.
  | .postInit => .ok c
  | .update input => c.handleMainGameComponentUpdate E input
  | .shutdown rounds => c.handleMainGameComponentShutdown E rounds
  | .game session => .ok { c with session := session }

/-- The component after a list of events, or the fault that ends it. -/
abbrev run (E : Engine σ) (c : NetMainGameComponent σ) (events : List (EngineEvent σ)) :
    Except ComponentFault (NetMainGameComponent σ) :=
  Fallible.run (step E) c events

/-! ## With both objects there -/

section Owned

variable {E : Engine σ} {c c' : NetMainGameComponent σ}

@[simp] theorem store_ok (c : NetMainGameComponent σ) (s : Session σ) :
    c.store (.ok s) = .ok { c with session := s } :=
  rfl

@[simp] theorem store_error (c : NetMainGameComponent σ) (fault : Fault) :
    c.store (.error fault) = .error (.session fault) :=
  rfl

@[simp] theorem withNetwork_netPlayerManager (c : NetMainGameComponent σ) (network : Network) :
    (c.withNetwork network).netPlayerManager = c.netPlayerManager :=
  rfl

theorem viaNetwork_eq (h : c.network = true)
    (method : NetMainGameComponent σ → Except ComponentFault (NetMainGameComponent σ)) :
    c.viaNetwork method = method c := by
  simp [viaNetwork, h]

theorem viaNetPlayerManager_eq (h : c.netPlayerManager = true)
    (method : Session σ → Except Fault (Session σ)) :
    c.viaNetPlayerManager method = c.store (method c.session) := by
  simp [viaNetPlayerManager, h]

theorem removeConnection_eq (h : c.netPlayerManager = true) (networkId : Int32) :
    c.removeConnection E networkId = c.store (c.session.removeConnection E networkId) := by
  rw [removeConnection, viaNetPlayerManager_eq h, Session.removeConnection]
  cases c.session.destroyNetPlayer E networkId with
  | error fault => rfl
  | ok s => rfl

theorem removeConnections_eq (h : c.netPlayerManager = true) (rounds : Nat) :
    c.removeConnections E rounds = c.store (c.session.removeConnections E rounds) := by
  rw [removeConnections, viaNetPlayerManager_eq h, Session.removeConnections]
  cases c.session.destroyNetPlayers E rounds with
  | error fault => rfl
  | ok s => rfl

theorem removeSelf_eq (h : c.netPlayerManager = true) :
    c.removeSelf E = .ok { c with session := c.session.removeSelf E } := by
  rw [removeSelf, viaNetPlayerManager_eq h]
  rfl

theorem networkDisconnect_eq (h : c.netPlayerManager = true) (rounds : Nat) :
    c.networkDisconnect E rounds = c.store (c.session.disconnect E rounds) := by
  rw [networkDisconnect, Session.disconnect]
  cases c.session.network.active with
  | false => rfl
  | true =>
    simp only [Bool.not_true, Bool.false_eq_true, if_false]
    rw [removeConnections_eq (by simpa using h)]
    simp only [withNetwork]
    -- The peer is inactive from here on, on both sides.
    generalize Session.removeConnections E rounds _ = removed
    cases removed with
    | error fault => rfl
    | ok s =>
      rw [store_ok]
      simp only
      rw [removeSelf_eq (by exact h)]
      rfl

theorem createNetPlayersLoop_eq (h : c.netPlayerManager = true) (count : Nat) (bs : BitStream) :
    c.createNetPlayersLoop E count bs =
      c.store (Session.createNetPlayersLoop E count bs c.session) := by
  induction count generalizing c bs with
  | zero => rfl
  | succ count ih =>
    rw [createNetPlayersLoop, viaNetPlayerManager_eq h, Session.createNetPlayersLoop]
    generalize c.session.createNetPlayers E _ _ _ = created
    cases created with
    | error fault => rfl
    | ok s => exact ih (c := { c with session := s }) h _

theorem handleConnectionNotification_eq (h : c.netPlayerManager = true)
    (systemAddress : SystemAddress) :
    c.handleConnectionNotification E systemAddress =
      c.store (c.session.handleConnectionNotification E systemAddress) := by
  rw [handleConnectionNotification]
  simp only
  rw [viaNetPlayerManager_eq (by exact h)]
  rfl

theorem handleCreateLocalNetPlayer_eq (h : c.netPlayerManager = true) (packet : Packet) :
    c.handleCreateLocalNetPlayer E packet =
      .ok { c with session := c.session.handleCreateLocalNetPlayer E packet } := by
  rw [handleCreateLocalNetPlayer]
  simp only
  rw [viaNetPlayerManager_eq (by exact h)]
  rfl

theorem handleCreateNetPlayer_eq (h : c.netPlayerManager = true) (packet : Packet) :
    c.handleCreateNetPlayer E packet = c.store (c.session.handleCreateNetPlayer E packet) := by
  rw [handleCreateNetPlayer, viaNetPlayerManager_eq h]
  rfl

theorem handleNetPlayerMovement_eq (h : c.netPlayerManager = true) (packet : Packet) :
    c.handleNetPlayerMovement packet =
      .ok { c with session := c.session.handleNetPlayerMovement packet } := by
  rw [handleNetPlayerMovement, viaNetPlayerManager_eq h]
  rfl

theorem handleNetPlayerRotation_eq (h : c.netPlayerManager = true) (packet : Packet) :
    c.handleNetPlayerRotation packet =
      .ok { c with session := c.session.handleNetPlayerRotation packet } := by
  rw [handleNetPlayerRotation, viaNetPlayerManager_eq h]
  rfl

theorem handleDestroyNetPlayer_eq (h : c.netPlayerManager = true) (packet : Packet) :
    c.handleDestroyNetPlayer E packet = c.store (c.session.handleDestroyNetPlayer E packet) :=
  viaNetPlayerManager_eq h _

theorem handleLoss_eq (hnetwork : c.network = true) (h : c.netPlayerManager = true)
    (rounds : Nat) (packet : Packet) :
    c.handleLoss E rounds packet = c.store (c.session.handleLoss E rounds packet) := by
  rw [handleLoss, Session.handleLoss, removeConnection_eq h]
  generalize c.session.removeConnection E _ = removed
  cases removed with
  | error fault => rfl
  | ok s =>
    rw [store_ok]
    simp only
    split
    · rw [viaNetwork_eq (by exact hnetwork), networkDisconnect_eq (by exact h)]
      rfl
    · rfl

theorem handleConnectionAttemptFailed_eq (hnetwork : c.network = true)
    (h : c.netPlayerManager = true) (rounds : Nat) :
    c.handleConnectionAttemptFailed E rounds =
      c.store (c.session.handleConnectionAttemptFailed E rounds) := by
  rw [handleConnectionAttemptFailed, Session.handleConnectionAttemptFailed]
  split
  · rw [viaNetwork_eq hnetwork, networkDisconnect_eq h]
  · rfl

/-- A packet is handled as the session handles it. -/
theorem handlePacket_eq (hnetwork : c.network = true) (h : c.netPlayerManager = true)
    (rounds : Nat) (packet : Packet) :
    c.handlePacket E rounds packet = c.store (c.session.update E rounds packet) := by
  rw [handlePacket, Session.update]
  cases c.session.network.active with
  | false => rfl
  | true =>
    simp only [Bool.not_true, Bool.false_eq_true, if_false]
    cases packet.kind with
    | connectionNotification => exact handleConnectionNotification_eq h packet.systemAddress
    | createLocalNetPlayer => exact handleCreateLocalNetPlayer_eq h packet
    | createNetPlayer => exact handleCreateNetPlayer_eq h packet
    | createNetPlayers => exact createNetPlayersLoop_eq h _ _
    | playerMovement => exact handleNetPlayerMovement_eq h packet
    | playerRotation => exact handleNetPlayerRotation_eq h packet
    | disconnectionNotification => exact handleLoss_eq hnetwork h rounds packet
    | connectionLost => exact handleLoss_eq hnetwork h rounds packet
    | destroyNetPlayer => exact handleDestroyNetPlayer_eq h packet
    | connectionAttemptFailed => exact handleConnectionAttemptFailed_eq hnetwork h rounds
    | _ => rfl

theorem networkUpdate_eq (hnetwork : c.network = true) (h : c.netPlayerManager = true)
    (rounds : Nat) (packets : List Packet) :
    c.networkUpdate E rounds packets =
      c.store (Fallible.run (fun s packet => s.update E rounds packet) c.session packets) := by
  induction packets generalizing c with
  | nil => rfl
  | cons packet packets ih =>
    rw [networkUpdate, Fallible.run, handlePacket_eq hnetwork h, Fallible.run]
    cases c.session.update E rounds packet with
    | error fault => rfl
    | ok s => exact ih (c := { c with session := s }) hnetwork h

theorem networkHost_eq (h : c.netPlayerManager = true) (port : UInt16) (startup : Bool) :
    c.networkHost E port startup =
      .ok { c with session := (c.session.host E port startup).2 } := by
  simp only [networkHost, Session.host, withNetwork]
  by_cases hactive : c.session.network.active = true
  · simp [hactive]
  · cases startup with
    | false => simp [hactive]
    | true =>
      simp only [hactive, Bool.not_true, Bool.false_eq_true, if_false]
      rw [viaNetPlayerManager_eq (by exact h)]
      rfl

/-- Opening a session makes both objects and ends as `Session.opened` says. -/
theorem host_eq (E : Engine σ) (input : UpdateInput) (c : NetMainGameComponent σ) :
    c.host E input =
      .ok
        { network := true
          netPlayerManager := true
          session :=
            Session.opened E (c.process input) (.host input.port input.startup) } := by
  rw [host, viaNetwork_eq rfl, networkHost_eq rfl]
  rfl

theorem connect_eq (E : Engine σ) (input : UpdateInput) (c : NetMainGameComponent σ) :
    c.connect input =
      .ok
        { network := true
          netPlayerManager := true
          session := Session.opened E (c.process input)
            (.connect input.ip input.port input.startup input.connected) } :=
  rfl

end Owned

/-! ## The life cycle -/

/-- Both owners hold an object or neither does. -/
def Paired (c : NetMainGameComponent σ) : Prop :=
  c.network = c.netPlayerManager

/-- A handler that went through no null owner has come to its end, or one of the two objects has
stopped it. -/
def Ended : Except ComponentFault (NetMainGameComponent σ) → Prop
  | .ok c => c.Paired
  | .error (.session _) => True
  | .error _ => False

/-- What the owners are to do over a run: they are paired between any two events, and no call goes
through a null one. -/
structure LifeCycle (E : Engine σ) (c : NetMainGameComponent σ) (events : List (EngineEvent σ)) :
    Prop where
  paired : Fallible.StatesSatisfy (step E) Paired c events
  owned : ∀ fault, run E c events = .error fault →
    ¬ (fault = .nullNetwork ∨ fault = .nullNetPlayerManager)

/-- A shutdown finds a session. -/
def ShutsDownOwned (c : NetMainGameComponent σ) : EngineEvent σ → Prop
  | .shutdown _ => c.network = true
  | _ => True

section LifeCycle

variable {E : Engine σ} {c c' : NetMainGameComponent σ}

theorem ended_store (h : c.Paired) (result : Except Fault (Session σ)) :
    Ended (c.store result) := by
  cases result with
  | error fault => trivial
  | ok s => exact h

theorem paired_release (h : c.Paired) : c.release.Paired := by
  rw [release]
  split
  · rfl
  · exact h

theorem netPlayerManager_of_paired (h : c.Paired) (hnetwork : c.network = true) :
    c.netPlayerManager = true :=
  h.symm.trans hnetwork

theorem ended_networkDisconnect (h : c.Paired) (hnetwork : c.network = true) (rounds : Nat) :
    Ended (c.viaNetwork (networkDisconnect E rounds)) := by
  rw [viaNetwork_eq hnetwork, networkDisconnect_eq (netPlayerManager_of_paired h hnetwork)]
  exact ended_store h _

theorem ended_networkUpdate (h : c.Paired) (hnetwork : c.network = true) (rounds : Nat)
    (packets : List Packet) : Ended (c.viaNetwork (networkUpdate E rounds packets)) := by
  rw [viaNetwork_eq hnetwork, networkUpdate_eq hnetwork (netPlayerManager_of_paired h hnetwork)]
  exact ended_store h _

theorem ended_selection (h : c.Paired) (input : UpdateInput) : Ended (c.selection E input) := by
  rw [selection]
  split
  · rename_i hnetwork
    split
    · exact ended_networkDisconnect h hnetwork input.rounds
    · exact h
  · split
    · rw [host_eq]
      rfl
    · split
      · rw [connect_eq E]
        rfl
      · exact h

theorem ended_update (h : c.Paired) (input : UpdateInput) :
    Ended (c.handleMainGameComponentUpdate E input) := by
  rw [handleMainGameComponentUpdate]
  have hselected := ended_selection (E := E) h input
  cases hselection : c.selection E input with
  | error fault =>
    rw [hselection] at hselected
    exact hselected
  | ok c₁ =>
    rw [hselection] at hselected
    simp only
    split
    · exact hselected
    · rename_i hnetwork
      have hupdated := ended_networkUpdate (E := E) (c := c₁) hselected (by simpa using hnetwork)
        input.rounds input.packets
      cases hupdate : c₁.viaNetwork (networkUpdate E input.rounds input.packets) with
      | error fault =>
        rw [hupdate] at hupdated
        exact hupdated
      | ok c₂ =>
        rw [hupdate] at hupdated
        exact paired_release hupdated

/-- The first call of a shutdown goes through `network`, whatever it holds. -/
theorem ended_shutdown_iff (h : c.Paired) (rounds : Nat) :
    Ended (c.handleMainGameComponentShutdown E rounds) ↔ c.network = true := by
  constructor
  · intro hended
    by_contra hnull
    simp [handleMainGameComponentShutdown, viaNetwork, hnull, Ended] at hended
  · intro hnetwork
    rw [handleMainGameComponentShutdown]
    have hdisconnected := ended_networkDisconnect (E := E) h hnetwork rounds
    cases hdisconnect : c.viaNetwork (networkDisconnect E rounds) with
    | error fault =>
      rw [hdisconnect] at hdisconnected
      exact hdisconnected
    | ok c₁ =>
      rw [hdisconnect] at hdisconnected
      exact paired_release hdisconnected

theorem ended_step_iff (h : c.Paired) (event : EngineEvent σ) :
    Ended (step E c event) ↔ c.ShutsDownOwned event := by
  cases event with
  | postInit => exact iff_of_true h trivial
  | update input => exact iff_of_true (ended_update h input) trivial
  | shutdown rounds => exact ended_shutdown_iff h rounds
  | game session => exact iff_of_true h trivial

/-- No event leaves one of the owners alone, a shutdown that fails included. -/
theorem paired_step (event : EngineEvent σ) (h : c.Paired) (hstep : step E c event = .ok c') :
    c'.Paired := by
  have hended : Ended (step E c event) := by
    refine (ended_step_iff h event).2 ?_
    cases event with
    | shutdown rounds =>
      by_contra hnull
      simp only [ShutsDownOwned] at hnull
      simp [step, handleMainGameComponentShutdown, viaNetwork, hnull] at hstep
    | _ => trivial
  rw [hstep] at hended
  exact hended

theorem owned_step_iff (event : EngineEvent σ) (h : c.Paired) :
    (∀ fault, step E c event = .error fault →
      ¬ (fault = .nullNetwork ∨ fault = .nullNetPlayerManager)) ↔ c.ShutsDownOwned event := by
  rw [← ended_step_iff (E := E) h event]
  cases hstep : step E c event with
  | ok c' => exact iff_of_true (by simp) (paired_step event h hstep)
  | error fault =>
    cases fault with
    | nullNetwork => simp [Ended]
    | nullNetPlayerManager => simp [Ended]
    | session inner => simp [Ended]

/-- The life cycle of a session.  The owners stay paired, and no call goes through a null owner
exactly when every shutdown comes while a session is there. -/
theorem life_cycle_iff (E : Engine σ) (s : Session σ) (events : List (EngineEvent σ)) :
    LifeCycle E { session := s } events ↔
      Fallible.StepsSatisfy (step E) ShutsDownOwned { session := s } events := by
  have hinit : Paired ({ session := s } : NetMainGameComponent σ) := rfl
  have hkeep : ∀ c event c', Paired c → step E c event = .ok c' → Paired c' :=
    fun _ event _ h hstep => paired_step event h hstep
  have howned : (∀ fault, run E { session := s } events = .error fault →
      ¬ (fault = .nullNetwork ∨ fault = .nullNetPlayerManager)) ↔
        Fallible.StepsSatisfy (step E) ShutsDownOwned { session := s } events :=
    Fallible.avoids_iff hinit hkeep fun c event h => owned_step_iff event h
  constructor
  · intro h
    exact howned.1 h.owned
  · intro h
    exact
      { paired := fun before after _ c hrun => Fallible.run_invariant hinit hkeep hrun
        owned := howned.2 h }

/-- The engine shuts down before anybody has hosted or connected. -/
theorem shutdown_without_session :
    ¬ LifeCycle (Engine.table fun _ _ => unassignedSystemAddress) { session := { engine := [] } }
      [.postInit, .update {}, .shutdown 0] := by
  intro h
  exact h.owned .nullNetwork rfl (.inl rfl)

end LifeCycle

end NetMainGameComponent
end Mod
end Crossover
