import Crossover.Lib.Lobby
import Crossover.Server.PlayerTable

/-!
# Roster — the server keeps a lobby

The player vector is a lobby's member table and every message is a note, so one step of the server
is one step of the lobby.  What a client has been told since its last assignment is then exactly
the set of the other spawned players.
-/

namespace Crossover
namespace Server

open Wire History

/-! ## The server's state and messages as a lobby's -/

abbrev LobbyMember := Lobby.Member SystemAddress Int32 Int32
abbrev LobbyNote := Lobby.Note Int32 Int32
abbrev LobbyAct := Lobby.Act SystemAddress Int32 Int32

def Player.member (p : Player) : LobbyMember :=
  { addr := p.address, id := p.networkId, present := p.spawned, info := p.defGlobalIndex }

def members (players : List Player) : List LobbyMember :=
  players.map Player.member

/-- What a message says to its receiver. -/
def messageNote : Message → Option LobbyNote
  | .connectionNotification => none
  | .createLocalNetPlayer networkId _ => some (.assign networkId)
  | .createNetPlayer networkId defGlobalIndex _ => some (.create networkId defGlobalIndex)
  | .createNetPlayers entries =>
      some (.roster (entries.map fun entry => (entry.networkId, entry.defGlobalIndex)))
  | .destroyNetPlayer networkId => some (.destroy networkId)
  | .playerMovement networkId _ _ => some (.relay networkId)
  | .playerRotation networkId _ _ => some (.relay networkId)

def note : PeerCall → Option (SystemAddress × LobbyNote)
  | .send send =>
      ((Message.parse send.data).bind messageNote).map fun said => (send.address, said)
  | _ => none

def notes (calls : List PeerCall) : List (SystemAddress × LobbyNote) :=
  calls.filterMap note

/-- What `dispatch` does to the lobby. -/
def dispatchAct (s : RelayServer) (packet : Packet) : LobbyAct :=
  match findByAddress s.players packet.systemAddress with
  | none =>
      if packet.kind = .connectionNotification ∧
          ¬ Int32.ofNat s.players.length ≥ s.config.maxPlayers then
        .join packet.systemAddress (allocateNetworkId s.players) 0
      else .idle
  | some self =>
      match packet.kind with
      | .createNetPlayer =>
          if packet.length < kSizeCreateNetPlayer then .idle
          else .announce self.networkId (readCreateNetPlayer packet).2.1
      | .playerMovement =>
          if packet.length < kSizePlayerMovement ∨ self.spawned = false then .idle
          else .relay self.networkId
      | .playerRotation =>
          if packet.length < kSizePlayerRotation ∨ self.spawned = false then .idle
          else .relay self.networkId
      | .disconnectionNotification => .leave self.networkId
      | .connectionLost => .leave self.networkId
      | _ => .idle

/-- What an event does to the lobby. -/
def act (s : RelayServer) (event : Event) : LobbyAct :=
  if !s.peer then .idle
  else
    match event with
    | .packet packet tickMs _ =>
        let booked := s.bookkeep packet tickMs
        if booked.2 then dispatchAct booked.1 packet else .idle
    | .tickEnd _ _ _ => .idle
    | .stop _ => .close

/-- Why a packet does to the lobby what it does. -/
inductive Dispatched (s : RelayServer) (packet : Packet) : LobbyAct → Prop
  | idle : Dispatched s packet .idle
  | join (unknown : findByAddress s.players packet.systemAddress = none)
      (kind : packet.kind = .connectionNotification)
      (room : ¬ Int32.ofNat s.players.length ≥ s.config.maxPlayers) :
      Dispatched s packet (.join packet.systemAddress (allocateNetworkId s.players) 0)
  | announce {self : Player} (known : findByAddress s.players packet.systemAddress = some self)
      (kind : packet.kind = .createNetPlayer) (long : kSizeCreateNetPlayer ≤ packet.length) :
      Dispatched s packet (.announce self.networkId (readCreateNetPlayer packet).2.1)
  | relay {self : Player} (known : findByAddress s.players packet.systemAddress = some self)
      (spawned : self.spawned = true) : Dispatched s packet (.relay self.networkId)
  | leave {self : Player} (known : findByAddress s.players packet.systemAddress = some self)
      (kind : packet.kind = .disconnectionNotification ∨ packet.kind = .connectionLost) :
      Dispatched s packet (.leave self.networkId)

theorem dispatched (s : RelayServer) (packet : Packet) :
    Dispatched s packet (dispatchAct s packet) := by
  unfold dispatchAct
  cases hfind : findByAddress s.players packet.systemAddress with
  | none =>
    by_cases hjoin : packet.kind = .connectionNotification ∧
        ¬ Int32.ofNat s.players.length ≥ s.config.maxPlayers
    · simpa only [if_pos hjoin] using Dispatched.join hfind hjoin.1 hjoin.2
    · simpa only [if_neg hjoin] using Dispatched.idle
  | some self =>
    cases hkind : packet.kind with
    | createNetPlayer =>
      by_cases hlen : packet.length < kSizeCreateNetPlayer
      · simpa only [if_pos hlen] using Dispatched.idle
      · simpa only [if_neg hlen] using Dispatched.announce hfind hkind (Nat.not_lt.1 hlen)
    | playerMovement =>
      by_cases hdropped : packet.length < kSizePlayerMovement ∨ self.spawned = false
      · simpa only [if_pos hdropped] using Dispatched.idle
      · have hspawned : self.spawned = true := by simpa using (not_or.1 hdropped).2
        simpa only [if_neg hdropped] using Dispatched.relay hfind hspawned
    | playerRotation =>
      by_cases hdropped : packet.length < kSizePlayerRotation ∨ self.spawned = false
      · simpa only [if_pos hdropped] using Dispatched.idle
      · have hspawned : self.spawned = true := by simpa using (not_or.1 hdropped).2
        simpa only [if_neg hdropped] using Dispatched.relay hfind hspawned
    | disconnectionNotification => exact .leave hfind (Or.inl hkind)
    | connectionLost => exact .leave hfind (Or.inr hkind)
    | _ => exact .idle

/-- Why an event does to the lobby what it does: a packet has passed the flood guard. -/
inductive Acted (s : RelayServer) : Event → LobbyAct → Prop
  | idle (event : Event) : Acted s event .idle
  | packet {packet : Packet} {tickMs handlerMs : Int} {act : LobbyAct} (peer : s.peer = true)
      (accepted : (s.bookkeep packet tickMs).2 = true)
      (dispatched : Dispatched (s.bookkeep packet tickMs).1 packet act) :
      Acted s (.packet packet tickMs handlerMs) act
  | stop (writable : Bool) (peer : s.peer = true) : Acted s (.stop writable) .close

theorem acted (s : RelayServer) (event : Event) : Acted s event (act s event) := by
  unfold act
  cases hpeer : s.peer with
  | false => exact .idle event
  | true =>
    cases event with
    | packet packet tickMs handlerMs =>
      simp only [Bool.not_true, Bool.false_eq_true, if_false]
      cases haccepted : (s.bookkeep packet tickMs).2 with
      | true =>
        rw [if_pos rfl]
        exact .packet hpeer haccepted (dispatched _ packet)
      | false =>
        rw [if_neg Bool.false_ne_true]
        exact .idle _
    | tickEnd nowMs persistMs writable => exact .idle _
    | stop writable => exact .stop writable hpeer

/-! ## Notes of the messages a handler sends -/

@[simp] theorem notes_nil : notes [] = [] := rfl

@[simp] theorem notes_append (calls more : List PeerCall) :
    notes (calls ++ more) = notes calls ++ notes more := by
  simp [notes]

theorem note_sendTo {m : Message} (hm : m.Countable) (a : SystemAddress) :
    note (m.sendTo a) = (messageNote m).map fun said => (a, said) := by
  simp [note, Message.sendTo, hm.parse_bytes]

theorem notes_singleton {m : Message} {said : LobbyNote} (hm : m.Countable)
    (hsaid : messageNote m = some said) (a : SystemAddress) :
    notes [m.sendTo a] = [(a, said)] := by
  simp [notes, note_sendTo hm, hsaid]

section Tables

variable {players : List Player}

theorem peers_members (players : List Player) (id : Int32) :
    Lobby.peers (members players) id = members (recipients players id) := by
  simp only [Lobby.peers, members, recipients, List.filter_map]
  congr 1
  apply List.filter_congr
  intro p _
  by_cases hid : p.networkId = id <;> simp [Player.member, hid]

theorem notes_relayMessage {m : Message} {said : LobbyNote} (hm : m.Countable)
    (hsaid : messageNote m = some said) (id : Int32) :
    notes (relayMessage players id m) = Lobby.broadcast (members players) id said := by
  rw [Lobby.broadcast, peers_members, relayMessage, members]
  induction recipients players id with
  | nil => rfl
  | cons p l ih =>
    have hhead := notes_singleton hm hsaid p.address
    have hsplit : notes (m.sendTo p.address :: l.map fun q => m.sendTo q.address) =
        notes [m.sendTo p.address] ++ notes (l.map fun q => m.sendTo q.address) :=
      notes_append [_] _
    simp only [List.map_cons, hsplit, hhead, ih]
    rfl

theorem notes_sendRoster (hlen : players.length < 2 ^ 31) {receiver : Player} {m : LobbyMember}
    (haddr : m.addr = receiver.address) (hid : m.id = receiver.networkId) :
    notes (sendRoster players receiver) = Lobby.rosterFor (members players) m := by
  rw [sendRoster_eq, Lobby.rosterFor, hid, haddr, peers_members]
  by_cases hempty : recipients players receiver.networkId = []
  · simp [hempty, members]
  · rw [if_neg hempty, if_neg (by simpa [members] using hempty)]
    apply notes_singleton (countable_rosterMessage hlen _)
    simp [rosterMessage, messageNote, members, Lobby.Member.entry, Player.member,
      Player.rosterEntry, Function.comp_def]

theorem members_filter (players : List Player) (id : Int32) :
    members (players.filter fun p => p.networkId != id) = Lobby.without (members players) id := by
  simp only [Lobby.without, members, List.filter_map]
  rfl

theorem members_updateByAddress {f : Player → Player} (hf : ∀ q, (f q).member = q.member)
    (a : SystemAddress) : members (updateByAddress a f players) = members players :=
  map_updateByAddress Player.member f hf

end Tables

/-! ## One step of the server is one step of the lobby -/

/-- A handler result that steps the lobby as `what` says, by sending messages only. -/
structure StepsLobby (s : RelayServer) (what : LobbyAct) (result : RelayServer × List PeerCall) :
    Prop where
  step : Lobby.Step (members s.players) what (notes result.2) (members result.1.players)
  sends : ∀ call ∈ result.2, SendsMessage call

/-- A result that sends nothing and keeps the members. -/
theorem stepsLobby_idle {s s' : RelayServer} (hmembers : members s'.players = members s.players) :
    StepsLobby s .idle (s', []) where
  step := by
    simp only [notes_nil, hmembers]
    exact Lobby.Step.idle _
  sends := by simp

/-- A refused join only closes the connection. -/
theorem stepsLobby_refuse (s : RelayServer) (a : SystemAddress) :
    StepsLobby s .idle (s, [.closeConnection a true]) where
  step := Lobby.Step.idle _
  sends := by
    intro call hcall send hsend
    obtain rfl := List.mem_singleton.1 hcall
    cases hsend

section Dispatch

variable {s : RelayServer} {packet : Packet} {self : Player}

theorem stepsLobby_join (hinv : TableInv s) {nowMs : Int}
    (hfind : findByAddress s.players packet.systemAddress = none)
    (hroom : ¬ Int32.ofNat s.players.length ≥ s.config.maxPlayers) :
    StepsLobby s (.join packet.systemAddress (allocateNetworkId s.players) 0)
      (s.handleConnectionNotification packet nowMs) := by
  have hmax := s.config.maxPlayers.toInt_lt
  have hlen := hinv.not_full hroom
  rw [handleConnectionNotification_join hfind hroom]
  refine ⟨?_, ?_⟩
  · rw [notes_singleton (m := .createLocalNetPlayer _ _) trivial rfl]
    simp only [members, List.map_append]
    apply Lobby.Step.join
    · intro m hm
      rcases List.mem_map.1 hm with ⟨p, hp, rfl⟩
      exact findByAddress_eq_none.1 hfind p hp
    · intro m hm
      rcases List.mem_map.1 hm with ⟨p, hp, rfl⟩
      exact allocateNetworkId_free (by omega) p hp
  · intro call hcall
    obtain rfl := List.mem_singleton.1 hcall
    exact sendsMessage_sendTo (by trivial) (by simp) _

theorem stepsLobby_announce (hinv : TableInv s)
    (hlen : kSizeCreateNetPlayer ≤ packet.length)
    (hfind : findByAddress s.players packet.systemAddress = some self) :
    StepsLobby s (.announce self.networkId (readCreateNetPlayer packet).2.1)
      (s.handleCreateNetPlayer packet) := by
  have hcount : (updateByAddress packet.systemAddress (Player.spawnAs
      (readCreateNetPlayer packet).2.1 (readCreateNetPlayer packet).2.2) s.players).length <
      2 ^ 31 := by
    simpa using hinv.length_lt
  rcases exists_split_of_findByAddress
    (Player.spawnAs (readCreateNetPlayer packet).2.1 (readCreateNetPlayer packet).2.2) hfind with
    ⟨before, after, hsplit, hupdate⟩
  rw [handleCreateNetPlayer_eq hlen hfind]
  refine ⟨?_, ?_⟩
  · simp only [notes_append]
    rw [notes_relayMessage (m := .createNetPlayer _ _ _) trivial rfl,
      notes_sendRoster hcount (m := self.member.announce (readCreateNetPlayer packet).2.1) rfl
        rfl, hupdate, hsplit]
    simp only [members, List.map_append, List.map_cons]
    exact Lobby.Step.announce _ _ self.member _
  · intro call hcall
    rcases List.mem_append.1 hcall with hcall | hcall
    · exact sendsMessage_relayMessage (m := .createNetPlayer _ _ _) trivial (by simp) _ call
        hcall
    · exact sendsMessage_sendRoster hcount self call hcall

theorem stepsLobby_motion (minSize : Nat) {messageId : UInt8} {m : Message}
    (store : Vec3 → Vec3 → Player → Player)
    (hstore : ∀ v w q, (store v w q).member = q.member)
    (hfind : findByAddress s.players packet.systemAddress = some self) (hcount : m.Countable)
    (hrel : m.reliability = .unreliableSequenced)
    (hsaid : messageNote m = some (.relay self.networkId))
    (hm : m.bytes = encode messageId ++ encode self.networkId ++
      encode (readMotion packet).2.1 ++ encode (readMotion packet).2.2) :
    StepsLobby s
      (if packet.length < minSize ∨ self.spawned = false then .idle else .relay self.networkId)
      (s.handleMotion minSize messageId store packet) := by
  have hidle : StepsLobby s .idle (s, []) := stepsLobby_idle rfl
  have hmem : self.member ∈ members s.players := List.mem_map_of_mem (findByAddress_mem hfind)
  have hne : m ≠ .connectionNotification := by
    rintro rfl
    cases hsaid
  by_cases hlen : packet.length < minSize
  · rw [if_pos (Or.inl hlen), handleMotion_short hlen]
    exact hidle
  cases hspawned : self.spawned with
  | false =>
    have hunspawned : ∀ p, findByAddress s.players packet.systemAddress = some p →
        p.spawned = false := by
      intro p hp
      rw [← Option.some.inj (hfind.symm.trans hp)]
      exact hspawned
    rw [if_pos (Or.inr rfl), handleMotion_unspawned hunspawned]
    exact hidle
  | true =>
    rw [if_neg (by simpa using hlen), handleMotion_eq store (Nat.not_lt.1 hlen) hfind hspawned
      hrel hm]
    refine ⟨?_, sendsMessage_relayMessage hcount hne _⟩
    rw [notes_relayMessage hcount hsaid]
    simp only [members_updateByAddress (hstore _ _)]
    exact Lobby.Step.relay _ self.member hmem hspawned

theorem stepsLobby_drop (hfind : findByAddress s.players packet.systemAddress = some self) :
    StepsLobby s (.leave self.networkId) (s.handleDrop packet) := by
  have hmem : self.member ∈ members s.players := List.mem_map_of_mem (findByAddress_mem hfind)
  have hstep := Lobby.Step.leave _ self.member hmem
  rw [handleDrop_eq hfind]
  cases hspawned : self.spawned with
  | true =>
    refine ⟨?_, sendsMessage_relayMessage (m := .destroyNetPlayer _) trivial (by simp) _⟩
    simp only [if_true, notes_relayMessage (m := .destroyNetPlayer self.networkId) trivial rfl,
      members_filter]
    simpa [Player.member, hspawned] using hstep
  | false =>
    refine ⟨?_, by simp⟩
    simpa [members_filter, Player.member, hspawned] using hstep

/-- Without a record only a join does anything. -/
theorem stepsLobby_dispatch_stranger (hinv : TableInv s) (nowMs : Int)
    (hfind : findByAddress s.players packet.systemAddress = none) :
    StepsLobby s (dispatchAct s packet) (s.dispatch packet nowMs) := by
  have hidle : StepsLobby s .idle (s, []) := stepsLobby_idle rfl
  have hnone : ∀ self, findByAddress s.players packet.systemAddress = some self →
      self.spawned = false := by
    intro self hself
    rw [hfind] at hself
    cases hself
  simp only [dispatchAct, hfind]
  cases hkind : packet.kind with
  | connectionNotification =>
    by_cases hfull : Int32.ofNat s.players.length ≥ s.config.maxPlayers
    · simpa [RelayServer.dispatch, hkind, hfull,
        handleConnectionNotification_full hfind hfull] using stepsLobby_refuse s _
    · simpa [RelayServer.dispatch, hkind, hfull] using stepsLobby_join hinv hfind hfull
  | createNetPlayer =>
    simpa [RelayServer.dispatch, hkind, handleCreateNetPlayer_unknown hfind] using hidle
  | playerMovement =>
    simpa [RelayServer.dispatch, hkind, RelayServer.handlePlayerMovement,
      handleMotion_unspawned hnone] using hidle
  | playerRotation =>
    simpa [RelayServer.dispatch, hkind, RelayServer.handlePlayerRotation,
      handleMotion_unspawned hnone] using hidle
  | disconnectionNotification =>
    simpa [RelayServer.dispatch, hkind, handleDrop_unknown hfind] using hidle
  | connectionLost =>
    simpa [RelayServer.dispatch, hkind, handleDrop_unknown hfind] using hidle
  | _ => simpa [RelayServer.dispatch, hkind] using hidle

/-- `dispatch` steps the lobby as `dispatchAct` says. -/
theorem stepsLobby_dispatch (hinv : TableInv s) (packet : Packet) (nowMs : Int) :
    StepsLobby s (dispatchAct s packet) (s.dispatch packet nowMs) := by
  have hidle : StepsLobby s .idle (s, []) := stepsLobby_idle rfl
  cases hfind : findByAddress s.players packet.systemAddress with
  | none => exact stepsLobby_dispatch_stranger hinv nowMs hfind
  | some self =>
    simp only [dispatchAct, hfind]
    cases hkind : packet.kind with
    | connectionNotification =>
      simpa [RelayServer.dispatch, hkind, handleConnectionNotification_known hfind] using hidle
    | createNetPlayer =>
      by_cases hlen : packet.length < kSizeCreateNetPlayer
      · simpa [RelayServer.dispatch, hkind, hlen, handleCreateNetPlayer_short hlen] using hidle
      · simpa [RelayServer.dispatch, hkind, hlen] using
          stepsLobby_announce hinv (Nat.not_lt.1 hlen) hfind
    | playerMovement =>
      have hmotion := stepsLobby_motion kSizePlayerMovement
        (m := .playerMovement self.networkId _ _)
        (fun position _ p => { p with position := position }) (fun _ _ _ => rfl) hfind trivial
        rfl rfl rfl
      simpa [RelayServer.dispatch, hkind, RelayServer.handlePlayerMovement] using hmotion
    | playerRotation =>
      have hmotion := stepsLobby_motion kSizePlayerRotation
        (m := .playerRotation self.networkId _ _)
        (fun up forward p => { p with up := up, forward := forward }) (fun _ _ _ => rfl) hfind
        trivial rfl rfl rfl
      simpa [RelayServer.dispatch, hkind, RelayServer.handlePlayerRotation] using hmotion
    | disconnectionNotification =>
      simpa [RelayServer.dispatch, hkind] using stepsLobby_drop hfind
    | connectionLost =>
      simpa [RelayServer.dispatch, hkind] using stepsLobby_drop hfind
    | _ => simpa [RelayServer.dispatch, hkind] using hidle

end Dispatch

theorem notes_stop (s : RelayServer) (writable : Bool) :
    notes (s.stop writable).2 = Lobby.farewell (members s.players) := by
  have hfilter : (members s.players).filter (fun m => m.present) =
      members (s.players.filter fun p => p.spawned) := by
    simp only [members, List.filter_map]
    rfl
  have hnotes : ∀ l : List Player,
      notes (l.flatMap fun p => RelayServer.broadcastDestroy s.players p.networkId) =
        (members l).flatMap fun m =>
          Lobby.broadcast (members s.players) m.id (.destroy m.id) := by
    intro l
    induction l with
    | nil => rfl
    | cons p l ih =>
      rw [List.flatMap_cons, notes_append, ih, broadcastDestroy_eq,
        notes_relayMessage (m := .destroyNetPlayer _) trivial rfl]
      rfl
  have hshutdown : notes [PeerCall.shutdown 500] = [] := rfl
  rw [Lobby.farewell, hfilter, ← hnotes]
  simp [RelayServer.stop, hshutdown]

/-- `Stop` reports every spawned player to all the others. -/
theorem stepsLobby_stop (s : RelayServer) (writable : Bool) :
    StepsLobby s .close (s.stop writable) := by
  refine ⟨?_, ?_⟩
  · rw [notes_stop]
    exact Lobby.Step.close _
  · intro call hcall
    simp only [RelayServer.stop, persistAnchor_players] at hcall
    rcases List.mem_append.1 hcall with hcall | hcall
    · rcases List.mem_flatMap.1 hcall with ⟨p, _, hp⟩
      rw [broadcastDestroy_eq] at hp
      exact sendsMessage_relayMessage (m := .destroyNetPlayer _) trivial (by simp) _ call hp
    · intro send hsend
      obtain rfl := List.mem_singleton.1 hcall
      cases hsend

/-! ## Runs -/

section Runs

@[simp] theorem account_member (p : Player) (nowMs : Int) :
    (RelayServer.account p nowMs).1.member = p.member := by
  simp only [RelayServer.account, RelayServer.acceptRate, RelayServer.rollRateWindow]
  split <;> split <;> rfl

theorem members_bookkeep (s : RelayServer) (packet : Packet) (tickMs : Int) :
    members (s.bookkeep packet tickMs).1.players = members s.players := by
  unfold RelayServer.bookkeep
  split
  · rfl
  · exact members_updateByAddress (fun q => account_member q tickMs) _

/-- One event of the server is one step of the lobby. -/
theorem stepsLobby_step {s : RelayServer} (hinv : TableInv s) (event : Event) :
    StepsLobby s (act s event) (step s event) := by
  cases hpeer : s.peer with
  | false => simpa [step, act, hpeer] using stepsLobby_idle rfl
  | true =>
    cases event with
    | packet packet tickMs handlerMs =>
      have hbooked := members_bookkeep s packet tickMs
      have hinv' := (keepsTable_bookkeep s packet tickMs).inv hinv
      cases haccept : (s.bookkeep packet tickMs).2 with
      | false =>
        simpa [step, act, hpeer, RelayServer.tickPacket, haccept] using stepsLobby_idle hbooked
      | true =>
        have hdispatch := stepsLobby_dispatch hinv' packet handlerMs
        simp only [step, act, hpeer, RelayServer.tickPacket, haccept, Bool.not_true,
          Bool.false_eq_true, if_false, if_true]
        exact ⟨hbooked ▸ hdispatch.step, hdispatch.sends⟩
    | tickEnd nowMs persistMs writable =>
      have hmembers := congrArg members (tickEnd_players s nowMs persistMs writable)
      simpa [step, act, hpeer] using stepsLobby_idle hmembers
    | stop writable =>
      simpa [step, act, hpeer] using stepsLobby_stop s writable

/-- What every run of the server keeps: the table invariant, agreement between the players and the
messages sent, and that nobody is told of the motion or the departure of a player it does not
know. -/
structure RosterInv (config : Config) (s : RelayServer) (calls : List PeerCall) : Prop where
  inv : ServerInv config s
  agrees : Lobby.Agrees (members s.players) (notes calls)
  sound : Lobby.Sound (notes calls)
  sends : ∀ call ∈ calls, SendsMessage call

theorem RosterInv.step {config : Config} {s : RelayServer} {calls : List PeerCall}
    (h : RosterInv config s calls) (event : Event) :
    RosterInv config (step s event).1 (calls ++ (step s event).2) := by
  have hstep := stepsLobby_step h.inv.table event
  refine ⟨h.inv.step event, ?_, ?_, ?_⟩
  · rw [notes_append]
    exact h.agrees.step hstep.step
  · rw [notes_append]
    exact h.sound.step h.agrees hstep.step
  · intro call hcall
    rcases List.mem_append.1 hcall with hcall | hcall
    · exact h.sends call hcall
    · exact hstep.sends call hcall

theorem rosterInv_run (config : Config) (nowMs : Int) (restored : Option Vec3)
    (events : List Event) :
    RosterInv config (server.state (start config nowMs restored) events)
      (server.log (start config nowMs restored) events) := by
  refine Machine.run_invariant (I := fun _ s calls => RosterInv config s calls) ?_ ?_ events
  · refine ⟨⟨rfl, tableInv_of_nil rfl, fun _ => rfl⟩, Lobby.agrees_nil, ?_, by simp⟩
    intro a
    exact every_nil _
  · intro _ s calls event h
    exact h.step event

end Runs

/-! ## Roster agreement -/

/-- The bytes sent reliable ordered to an address, in order. -/
def reliableOrderedTo (address : SystemAddress) (calls : List PeerCall) : List (List UInt8) :=
  calls.filterMap fun call =>
    match call with
    | .send send =>
        if send.address = address ∧ send.reliability = .reliableOrdered then some send.data
        else none
    | _ => none

def isCreateLocalNetPlayer (data : List UInt8) : Bool :=
  data.head? == some idCreateLocalNetPlayer

/-- How a message changes the set of peers its receiver has been told of. -/
def foldRoster (ids : Finset Int32) (data : List UInt8) : Finset Int32 :=
  match Message.parse data with
  | some (.createNetPlayer networkId _ _) => insert networkId ids
  | some (.createNetPlayers entries) => ids ∪ (entries.map RosterEntry.networkId).toFinset
  | some (.destroyNetPlayer networkId) => ids.erase networkId
  | _ => ids

/-- The peers an address has been told of since its latest `ID_CREATE_LOCAL_NET_PLAYER`. -/
def rosterOf (calls : List PeerCall) (address : SystemAddress) : Finset Int32 :=
  (afterLast isCreateLocalNetPlayer (reliableOrderedTo address calls)).foldl foldRoster ∅

/-- The id an `ID_PLAYER_MOVEMENT`, `ID_PLAYER_ROTATION` or `ID_DESTROY_NET_PLAYER` names. -/
def namedId (data : List UInt8) : Option Int32 :=
  match Message.parse data with
  | some (.playerMovement networkId _ _) => some networkId
  | some (.playerRotation networkId _ _) => some networkId
  | some (.destroyNetPlayer networkId) => some networkId
  | _ => none

/-- The network ids of the other players that have spawned. -/
def otherSpawned (players : List Player) (c : Player) : Finset Int32 :=
  ((players.filter fun p => p.spawned && p != c).map Player.networkId).toFinset

section Agreement

theorem isCreateLocalNetPlayer_bytes (m : Message) :
    isCreateLocalNetPlayer m.bytes = match m with
      | .createLocalNetPlayer _ _ => true
      | _ => false := by
  cases m <;> rfl

/-- One more message changes what its receiver has been told as the lobby says. -/
theorem rosterOf_snoc_sendTo (calls : List PeerCall) {m : Message} (hm : m.Countable)
    (a b : SystemAddress) :
    rosterOf (calls ++ [m.sendTo b]) a =
      if b = a then ((messageNote m).map (Lobby.hear (rosterOf calls a))).getD (rosterOf calls a)
      else rosterOf calls a := by
  have hparse := hm.parse_bytes
  by_cases hba : b = a
  · subst hba
    rw [if_pos rfl]
    cases m with
    | createNetPlayers entries =>
      simp [rosterOf, reliableOrderedTo, Message.sendTo, Message.reliability, afterLast_snoc,
        isCreateLocalNetPlayer_bytes, foldRoster, hparse, messageNote, Lobby.hear,
        Function.comp_def]
    | _ =>
      simp [rosterOf, reliableOrderedTo, Message.sendTo, Message.reliability, afterLast_snoc,
        isCreateLocalNetPlayer_bytes, foldRoster, hparse, messageNote, Lobby.hear]
  · rw [if_neg hba]
    simp [rosterOf, reliableOrderedTo, Message.sendTo, hba]

/-- What an address has been told is what its notes tell. -/
theorem rosterOf_eq_told {calls : List PeerCall} (h : ∀ call ∈ calls, SendsMessage call)
    (a : SystemAddress) : rosterOf calls a = Lobby.told (Lobby.inbox (notes calls) a) := by
  induction calls using List.reverseRecOn with
  | nil => rfl
  | append_singleton calls call ih =>
    have hcalls := ih fun c hc => h c (List.mem_append_left _ hc)
    have hcall := h call (by simp)
    cases call with
    | send send =>
      rcases hcall send rfl with ⟨m, hm, heq, _⟩
      have hnote : notes [m.sendTo send.address] =
          ((messageNote m).map fun said => (send.address, said)).toList := by
        cases hsaid : messageNote m <;> simp [notes, note_sendTo hm, hsaid]
      rw [heq, rosterOf_snoc_sendTo calls hm, notes_append, Lobby.inbox_append, hnote, hcalls]
      -- Both sides are updated by the message when it goes to the address, else by neither.
      by_cases ha : send.address = a
      · cases hsaid : messageNote m <;> simp [ha, Lobby.told_snoc]
      · cases hsaid : messageNote m <;> simp [ha]
    -- The other two calls tell nobody anything.
    | closeConnection address notification =>
      have hquiet : rosterOf (calls ++ [.closeConnection address notification]) a =
          rosterOf calls a := by
        simp [rosterOf, reliableOrderedTo]
      have hsilent : notes [PeerCall.closeConnection address notification] = [] := rfl
      rw [hquiet, notes_append, hsilent, List.append_nil, hcalls]
    | shutdown blockDuration =>
      have hquiet : rosterOf (calls ++ [.shutdown blockDuration]) a = rosterOf calls a := by
        simp [rosterOf, reliableOrderedTo]
      have hsilent : notes [PeerCall.shutdown blockDuration] = [] := rfl
      rw [hquiet, notes_append, hsilent, List.append_nil, hcalls]

/-- For a player of the table, the other spawned players are its peers in the lobby. -/
theorem otherSpawned_eq {s : RelayServer} (h : TableInv s) {c : Player} (hc : c ∈ s.players) :
    otherSpawned s.players c = Lobby.peerIds (members s.players) c.networkId := by
  have hfilter : (s.players.filter fun p => p.spawned && p != c) =
      recipients s.players c.networkId := by
    apply List.filter_congr
    intro p hp
    have hiff : p = c ↔ p.networkId = c.networkId :=
      ⟨fun heq => heq ▸ rfl, fun heq => h.eq_of_networkId hp hc heq⟩
    by_cases hpc : p = c
    · simp [hpc]
    · have hid : ¬ p.networkId = c.networkId := fun heq => hpc (hiff.2 heq)
      have hid' : (p.networkId == c.networkId) = false := by simpa using hid
      have hpc' : (p != c) = true := by simpa using hpc
      simp [hid', hpc']
  have hmap : (members (recipients s.players c.networkId)).map Lobby.Member.id =
      (recipients s.players c.networkId).map Player.networkId := by
    simp [members, Player.member, Function.comp_def]
  rw [otherSpawned, Lobby.peerIds, peers_members, hfilter, hmap]

variable {config : Config} {s : RelayServer} {calls : List PeerCall}

/-- Agreement in a state: every spawned client has been told of exactly the other spawned ones. -/
theorem RosterInv.rosterOf_eq (h : RosterInv config s calls) {c : Player} (hc : c ∈ s.players)
    (hspawned : c.spawned = true) : rosterOf calls c.address = otherSpawned s.players c := by
  have hmem : c.member ∈ members s.players := List.mem_map_of_mem hc
  have hinformed := h.agrees.informed c.member hmem hspawned
  rw [rosterOf_eq_told h.sends, otherSpawned_eq h.inv.table hc]
  exact hinformed

/-- Motion and departures name players their receivers know at that moment. -/
theorem RosterInv.every_named (h : RosterInv config s calls) :
    Every (fun before call => ∀ send k, call = .send send → namedId send.data = some k →
      k ∈ rosterOf before send.address) calls := by
  intro before call after hsplit send k hsend hk
  subst hsend
  have hbefore : ∀ c ∈ before, SendsMessage c := by
    intro c hc
    exact h.sends c (by simp [hsplit, hc])
  rcases h.sends (.send send) (by simp [hsplit]) send rfl with ⟨m, hm, heq, _⟩
  have hdata : send.data = m.bytes := by
    injection heq with heq
    exact congrArg Send.data heq
  rw [namedId, hdata, hm.parse_bytes] at hk
  -- The note of the message stands in its receiver's inbox behind the notes of `before`.
  have hnote : ∃ said, messageNote m = some said ∧ said.mentioned = some k := by
    cases m <;> simp_all [messageNote, Lobby.Note.mentioned]
  rcases hnote with ⟨said, hsaid, hmentioned⟩
  have hnotes : notes calls = notes before ++ (send.address, said) :: notes after := by
    have hsingle := notes_singleton hm hsaid send.address
    rw [← heq] at hsingle
    rw [hsplit, notes_append]
    exact congrArg (notes before ++ ·)
      ((notes_append [_] after).trans (by rw [hsingle]; rfl))
  have hinbox := congrArg (fun mail => Lobby.inbox mail send.address) hnotes
  simp only [Lobby.inbox_append, Lobby.inbox_cons, if_true] at hinbox
  rw [rosterOf_eq_told hbefore]
  exact h.sound send.address _ said _ hinbox k hmentioned

/-- The shutdown takes every spawned client's peers back. -/
theorem RosterInv.rosterOf_stop (h : RosterInv config s calls) (hpeer : s.peer = true)
    (writable : Bool) {c : Player} (hc : c ∈ s.players) (hspawned : c.spawned = true) :
    rosterOf (calls ++ (Server.step s (.stop writable)).2) c.address = ∅ := by
  have hmem : c.member ∈ members s.players := List.mem_map_of_mem hc
  have hnotes : notes (Server.step s (.stop writable)).2 = Lobby.farewell (members s.players) := by
    simp only [Server.step, hpeer, Bool.not_true, Bool.false_eq_true, if_false, notes_stop]
  rw [rosterOf_eq_told (h.step (.stop writable)).sends, notes_append, hnotes]
  exact h.agrees.told_farewell hmem hspawned

end Agreement

/-- Roster agreement: what each spawned client has been told since its assignment is exactly the
other spawned players, motion and departures only ever name players their receiver knows, and
after `Stop` no client that was spawned knows anybody. -/
theorem roster_agreement (config : Config) (nowMs : Int) (restored : Option Vec3)
    (events : List Event) :
    let s₀ := start config nowMs restored
    let s := server.state s₀ events
    let calls := server.log s₀ events
    (∀ c ∈ s.players, c.spawned = true →
      rosterOf calls c.address = otherSpawned s.players c) ∧
    Every (fun before call => ∀ send k, call = .send send → namedId send.data = some k →
      k ∈ rosterOf before send.address) calls ∧
    (∀ writable later, ∀ c ∈ s.players, c.spawned = true →
      rosterOf (server.log s₀ (events ++ .stop writable :: later)) c.address = ∅) := by
  intro s₀ s calls
  have h : RosterInv config s calls := rosterInv_run config nowMs restored events
  refine ⟨fun c hc hspawned => h.rosterOf_eq hc hspawned, h.every_named, ?_⟩
  intro writable later c hc hspawned
  have hpeer : s.peer = true := by
    cases hpeer : s.peer with
    | true => rfl
    | false =>
      rw [h.inv.stopped hpeer] at hc
      cases hc
  -- Behind `Stop` there is no peer, so nothing is sent any more.
  have hstopped : (step s (.stop writable)).1.peer = false := by
    simp [step, hpeer, RelayServer.stop]
  have hlog : server.log s₀ (events ++ .stop writable :: later) =
      calls ++ (step s (.stop writable)).2 := by
    have hlater : server.log (step s (.stop writable)).1 later = [] := by
      rw [Machine.log, run_of_not_peer hstopped]
    rw [Machine.log_append, Machine.log_cons, server_step, hlater, List.append_nil]
  rw [hlog]
  exact h.rosterOf_stop hpeer writable hc hspawned

end Server
end Crossover
