import Crossover.Lib.Audience
import Crossover.System.Announcements

/-!
# Attendance — what well-behaved clients do, and what the server makes of it

`ClientEvent` is something a mod client does with its connection, `lobby` the table that these
events amount to, and `WellBehaved` says what a client may do when.  As long as the flood guard
does not get into the way, the server's player vector is this table and its messages serve the
members that are present.
-/

namespace Crossover
namespace Attendance

open Wire Server Lobby History

/-! ## The clients -/

inductive ClientAct
  | join
  | spawn (defGlobalIndex : Int32) (position : Vec3)
  | move (position acceleration : Vec3)
  | rotate (up forward : Vec3)
  | leave (lost : Bool)
  deriving DecidableEq, Repr

/-- Something the client behind a connection does; the clock readings are the server's. -/
structure ClientEvent where
  address : SystemAddress
  guid : UInt64
  act : ClientAct
  tickMs : Int
  handlerMs : Int
  deriving DecidableEq, Repr

namespace ClientEvent

/-- The bytes of the packet, from a client that has been assigned `networkId`.  A departure is told
by the transport: `ID_CONNECTION_LOST` or `ID_DISCONNECTION_NOTIFICATION`. -/
def data (networkId : Int32) : ClientAct → List UInt8
  | .join => (BitStream.write {} idConnectionNotification).data
  | .spawn defGlobalIndex position =>
      (Mod.Session.createNetPlayerMessage networkId defGlobalIndex position).data
  | .move position acceleration =>
      (Mod.Session.motionMessage idPlayerMovement networkId position acceleration).data
  | .rotate up forward =>
      (Mod.Session.motionMessage idPlayerRotation networkId up forward).data
  | .leave lost => [if lost then 22 else 21]

def packet (event : ClientEvent) (networkId : Int32) : Packet where
  systemAddress := event.address
  guid := event.guid
  data := data networkId event.act
  nonempty := by
    cases event.act <;> simp [data, Mod.Session.createNetPlayerMessage, Mod.Session.motionMessage]

@[simp] theorem packet_systemAddress (event : ClientEvent) (networkId : Int32) :
    (event.packet networkId).systemAddress = event.address := rfl

/-- The message in the packet. -/
def message (networkId : Int32) : ClientAct → Option Message
  | .join => some .connectionNotification
  | .spawn defGlobalIndex position => some (.createNetPlayer networkId defGlobalIndex position)
  | .move position acceleration => some (.playerMovement networkId position acceleration)
  | .rotate up forward => some (.playerRotation networkId up forward)
  | .leave _ => none

theorem data_eq {event : ClientEvent} {networkId : Int32} {m : Message}
    (h : message networkId event.act = some m) : (event.packet networkId).data = m.bytes := by
  simp only [packet]
  cases hact : event.act <;> rw [hact] at h <;> cases h <;> rfl

theorem isDrop_packet {event : ClientEvent} {lost : Bool} (hact : event.act = .leave lost)
    (networkId : Int32) : IsDrop (event.packet networkId) := by
  rcases event with ⟨address, guid, what, tickMs, handlerMs⟩
  obtain rfl : what = .leave lost := hact
  have hnotification : MessageKind.ofByte 21 = .disconnectionNotification := by decide
  have hlost : MessageKind.ofByte 22 = .connectionLost := by decide
  cases lost with
  | false => exact Or.inl hnotification
  | true => exact Or.inr hlost

end ClientEvent

/-! ## The table -/

/-- The first id from 1 on that nobody has. -/
def nextId (T : List LobbyMember) : Int32 :=
  FirstFree.search (fun c => decide (c ∈ T.map Member.id)) (· + 1) T.length kFirstClientNetworkId

def memberAt (T : List LobbyMember) (address : SystemAddress) : Option LobbyMember :=
  T.find? fun m => m.addr == address

/-- What a client's event does to the table. -/
def lobbyAct (T : List LobbyMember) (event : ClientEvent) : LobbyAct :=
  match event.act, memberAt T event.address with
  | .join, _ => .join event.address (nextId T) 0
  | .spawn defGlobalIndex _, some m => .announce m.id defGlobalIndex
  | .move _ _, some m => if m.present then .relay m.id else .idle
  | .rotate _ _, some m => if m.present then .relay m.id else .idle
  | .leave _, some m => .leave m.id
  | _, none => .idle

/-- The table behind these events. -/
def lobby (events : List ClientEvent) : List LobbyMember :=
  events.foldl (fun T event => apply T (lobbyAct T event)) []

/-- The addresses of the clients that have joined. -/
def joins (events : List ClientEvent) : List SystemAddress :=
  events.filterMap fun event => if event.act = .join then some event.address else none

theorem lobby_snoc (events : List ClientEvent) (event : ClientEvent) :
    lobby (events ++ [event]) = apply (lobby events) (lobbyAct (lobby events) event) := by
  simp [lobby]

/-! ## Good behaviour -/

/-- The addresses that no client can have, and the capacities of the two servers: the host lets
`slots - 1` clients in. -/
structure Premises where
  reserved : List SystemAddress
  maxPlayers : Int32
  slots : Int32

/-- A client may do this behind these events: join from an address that is not in use and was
never used before, spawn once, and go on as long as it has not left. -/
def Allowed (premises : Premises) (before : List ClientEvent) (event : ClientEvent) : Prop :=
  match event.act with
  | .join =>
      (∀ earlier ∈ before, earlier.address ≠ event.address) ∧
        event.address ∉ premises.reserved ∧
        ((lobby before).length : Int) < premises.maxPlayers.toInt ∧
        ((lobby before).length : Int) < premises.slots.toInt - 1
  | .spawn _ _ => ∃ m ∈ lobby before, m.addr = event.address ∧ m.present = false
  | _ => ∃ m ∈ lobby before, m.addr = event.address

instance (premises : Premises) (before : List ClientEvent) (event : ClientEvent) :
    Decidable (Allowed premises before event) := by
  unfold Allowed
  split <;> infer_instance

/-- The clients claim the ids they are assigned; this is built into their packets. -/
def WellBehaved (premises : Premises) (events : List ClientEvent) : Prop :=
  Every (Allowed premises) events

instance (premises : Premises) (events : List ClientEvent) :
    Decidable (WellBehaved premises events) :=
  inferInstanceAs (Decidable (Every _ _))

/-! ## Who is at an address -/

section Tables

variable {T : List LobbyMember} {m : LobbyMember} {a : SystemAddress}

theorem memberAt_of_mem (hT : WellFormed T) (hm : m ∈ T) (haddr : m.addr = a) :
    memberAt T a = some m := by
  cases hfind : memberAt T a with
  | none =>
    have hnot := List.find?_eq_none.1 hfind m hm
    simp [haddr] at hnot
  | some q =>
    have hq : q.addr = a := by simpa using List.find?_some hfind
    rw [hT.eq_of_addr (List.mem_of_find?_eq_some hfind) hm (hq.trans haddr.symm)]

theorem memberAt_members (players : List Player) (a : SystemAddress) :
    memberAt (members players) a = (findByAddress players a).map Player.member := by
  simp [memberAt, members, findByAddress, List.find?_map, Function.comp_def, Player.member]

theorem nextId_members (players : List Player) :
    nextId (members players) = allocateNetworkId players := by
  rw [allocateNetworkId_eq, nextId]
  simp [members, Function.comp_def, Player.member]

/-- The unbounded search for an id returns. -/
theorem nextId_returns (hlen : T.length < 2 ^ 31 - 1) :
    FirstFree.Finds (· ∈ T.map Member.id) (· + 1) kFirstClientNetworkId (nextId T) := by
  have hfit : 1 + T.length < 2 ^ 31 := by omega
  exact FirstFree.finds_int32 hfit

theorem nextId_ne_zero (hlen : T.length < 2 ^ 31 - 1) : nextId T ≠ 0 := by
  have hfit : 1 + T.length < 2 ^ 31 := by omega
  have hleast := FirstFree.least_int32 hfit (nextId_returns hlen)
  intro hzero
  rw [hzero] at hleast
  exact absurd hleast.1 (by decide)

theorem joins_snoc (T : List LobbyMember) (before : List ClientEvent) (event : ClientEvent) :
    joins (before ++ [event]) = Audience.usedBy (joins before) (lobbyAct T event) := by
  rw [joins, List.filterMap_append]
  cases hact : event.act with
  | join => simp [joins, Audience.usedBy, lobbyAct, hact]
  | _ =>
    have hnone : [event].filterMap (fun event =>
        if event.act = .join then some event.address else none) = [] := by simp [hact]
    rw [hnone, List.append_nil]
    cases hat : memberAt T event.address with
    | none => simp [joins, Audience.usedBy, lobbyAct, hact, hat]
    | some m => cases hp : m.present <;> simp [joins, Audience.usedBy, lobbyAct, hact, hat, hp]

theorem exists_of_joins {before : List ClientEvent} (h : a ∈ joins before) :
    ∃ earlier ∈ before, earlier.address = a := by
  rcases List.mem_filterMap.1 h with ⟨earlier, hmem, hsome⟩
  refine ⟨earlier, hmem, ?_⟩
  by_cases hjoin : earlier.act = .join
  · simpa [hjoin] using hsome
  · simp [hjoin] at hsome

end Tables

/-! ## Assigned ids -/

def assigned : Message → Option Int32
  | .createLocalNetPlayer networkId _ => some networkId
  | _ => none

/-- The ids that an address has been assigned. -/
def assignedIds (address : SystemAddress) (calls : List PeerCall) : List Int32 :=
  (orderedMessages address calls).filterMap assigned

/-- The id a client claims: the last it was assigned. -/
def assignedId (address : SystemAddress) (calls : List PeerCall) : Int32 :=
  (assignedIds address calls).getLast?.getD (-1)

theorem assignedIds_eq {calls : List PeerCall} (h : ∀ call ∈ calls, SendsMessage call)
    (a : SystemAddress) :
    assignedIds a calls = (heard (notes calls) a).filterMap Note.assigned := by
  have hnotes := notes_orderedMessages h a
  rw [heard, ← hnotes, List.filterMap_filterMap, assignedIds]
  apply List.filterMap_congr
  intro m _
  cases m <;> rfl

/-! ## The dedicated server -/

/-- The server takes the client's packet; the client claims the id that this server gave it. -/
def relayStep (state : RelayServer × List PeerCall) (event : ClientEvent) :
    RelayServer × List PeerCall :=
  let packet := event.packet (assignedId event.address state.2)
  let result := Server.step state.1 (.packet packet event.tickMs event.handlerMs)
  (result.1, state.2 ++ result.2)

/-- The server and everything it has sent, behind these events. -/
def relayRun (config : Config) (nowMs : Int) (restored : Option Vec3)
    (events : List ClientEvent) : RelayServer × List PeerCall :=
  events.foldl relayStep (start config nowMs restored, [])

/-- The flood guard lets the client's packet through. -/
def Admits (s : RelayServer) (event : ClientEvent) : Prop :=
  ∀ self, findByAddress s.players event.address = some self → RateAdmits self event.tickMs

instance (s : RelayServer) (event : ClientEvent) : Decidable (Admits s event) :=
  match hfind : findByAddress s.players event.address with
  | none => isTrue fun self hself => by
      rw [hfind] at hself
      cases hself
  | some self => decidable_of_iff (RateAdmits self event.tickMs)
      ⟨fun h _ hself => Option.some.inj (hfind.symm.trans hself) ▸ h, fun h => h self hfind⟩

/-- The flood guard never gets into the way. -/
def Unhindered (config : Config) (nowMs : Int) (restored : Option Vec3)
    (events : List ClientEvent) : Prop :=
  Every (fun before event => Admits (relayRun config nowMs restored before).1 event) events

instance (config : Config) (nowMs : Int) (restored : Option Vec3) (events : List ClientEvent) :
    Decidable (Unhindered config nowMs restored events) :=
  inferInstanceAs (Decidable (Every _ _))

theorem relayRun_snoc (config : Config) (nowMs : Int) (restored : Option Vec3)
    (events : List ClientEvent) (event : ClientEvent) :
    relayRun config nowMs restored (events ++ [event]) =
      relayStep (relayRun config nowMs restored events) event := by
  simp [relayRun]

section Relay

variable {s : RelayServer} {event : ClientEvent}

/-- The packet of a client that is known, without the flood guard. -/
theorem dispatchAct_of_known {self : Player}
    (hfind : findByAddress s.players event.address = some self) (hjoin : event.act ≠ .join)
    (id : Int32) :
    dispatchAct s (event.packet id) = lobbyAct (members s.players) event := by
  have hat := memberAt_members s.players event.address
  rw [hfind, Option.map_some] at hat
  have hbytes : ∀ {m : Message}, ClientEvent.message id event.act = some m →
      (event.packet id).data = m.bytes := ClientEvent.data_eq
  cases hact : event.act with
  | join => exact absurd hact hjoin
  | spawn defGlobalIndex position =>
    have hdata := hbytes (by rw [hact]; rfl)
    have hlen : kSizeCreateNetPlayer ≤ (event.packet id).length :=
      (Packet.length_of_bytes hdata).ge
    rw [dispatchAct_announce hfind (Packet.kind_of_bytes hdata) hlen,
      readCreateNetPlayer_of_bytes hdata]
    simp only [lobbyAct, hact, hat]
    rfl
  | move position acceleration =>
    have hdata := hbytes (by rw [hact]; rfl)
    have hkind := Packet.kind_of_bytes hdata
    have hlen := Packet.length_of_bytes hdata
    simp only [dispatchAct, lobbyAct, ClientEvent.packet_systemAddress, hfind, hkind, hlen, hact,
      hat, Message.kind, Message.size]
    -- Both sides ask whether the mover has spawned.
    cases hspawned : self.spawned <;> simp [Player.member, hspawned]
  | rotate up forward =>
    have hdata := hbytes (by rw [hact]; rfl)
    have hkind := Packet.kind_of_bytes hdata
    have hlen := Packet.length_of_bytes hdata
    simp only [dispatchAct, lobbyAct, ClientEvent.packet_systemAddress, hfind, hkind, hlen, hact,
      hat, Message.kind, Message.size]
    cases hspawned : self.spawned <;> simp [Player.member, hspawned]
  | leave lost =>
    rcases ClientEvent.isDrop_packet hact id with hkind | hkind <;>
      simp only [dispatchAct, lobbyAct, ClientEvent.packet_systemAddress, hfind, hkind, hact,
        hat] <;> rfl

/-- A client that is allowed to do anything but join is a member. -/
theorem Allowed.exists_member {premises : Premises} {before : List ClientEvent}
    (h : Allowed premises before event) (hjoin : event.act ≠ .join) :
    ∃ m ∈ lobby before, m.addr = event.address := by
  unfold Allowed at h
  split at h
  · rename_i hact
    exact absurd hact hjoin
  · rcases h with ⟨m, hm, haddr, _⟩
    exact ⟨m, hm, haddr⟩
  · exact h

theorem lobbyAct_ne_close (T : List LobbyMember) (event : ClientEvent) :
    lobbyAct T event ≠ .close := by
  cases hact : event.act <;> cases hat : memberAt T event.address <;> simp [lobbyAct, hact, hat]
  all_goals
    split <;> simp

theorem of_join {T : List LobbyMember} {a : SystemAddress} {id info : Int32}
    (h : lobbyAct T event = .join a id info) : event.act = .join ∧ a = event.address := by
  cases hact : event.act with
  | join =>
    simp only [lobbyAct, hact] at h
    injection h with haddr
    exact ⟨rfl, haddr.symm⟩
  | _ =>
    cases hat : memberAt T event.address with
    | none => simp [lobbyAct, hact, hat] at h
    | some m => cases hp : m.present <;> simp [lobbyAct, hact, hat, hp] at h

theorem of_announce {T : List LobbyMember} {id info : Int32}
    (h : lobbyAct T event = .announce id info) :
    ∃ position m, event.act = .spawn info position ∧ memberAt T event.address = some m ∧
      m.id = id := by
  cases hact : event.act with
  | join => simp [lobbyAct, hact] at h
  | spawn defGlobalIndex position =>
    cases hat : memberAt T event.address with
    | none => simp [lobbyAct, hact, hat] at h
    | some m =>
      simp only [lobbyAct, hact, hat] at h
      injection h with hid hinfo
      exact ⟨position, m, by rw [hinfo], rfl, hid⟩
  | _ =>
    cases hat : memberAt T event.address with
    | none => simp [lobbyAct, hact, hat] at h
    | some m => cases hp : m.present <;> simp [lobbyAct, hact, hat, hp] at h

/-- A client that is allowed to join has not used its address before. -/
theorem Allowed.fresh {premises : Premises} {before : List ClientEvent}
    (h : Allowed premises before event) {a : SystemAddress} {id info : Int32}
    (hjoin : lobbyAct (lobby before) event = .join a id info) : a ∉ joins before := by
  rcases of_join hjoin with ⟨hact, rfl⟩
  simp only [Allowed, hact] at h
  intro hused
  rcases exists_of_joins hused with ⟨earlier, hearlier, heq⟩
  exact h.1 earlier hearlier heq

/-- A client that is allowed to spawn has not done so. -/
theorem Allowed.absent {premises : Premises} {before : List ClientEvent}
    (h : Allowed premises before event) (hT : WellFormed (lobby before)) {id info : Int32}
    (hact : lobbyAct (lobby before) event = .announce id info) :
    ∀ m ∈ lobby before, m.id = id → m.present = false := by
  rcases of_announce hact with ⟨position, n, hspawn, hat, rfl⟩
  simp only [Allowed, hspawn] at h
  rcases h with ⟨q, hq, haddr, habsent⟩
  rw [memberAt_of_mem hT hq haddr] at hat
  obtain rfl := Option.some.inj hat
  intro m hm hid
  rw [hT.eq_of_id hm hq hid]
  exact habsent

/-- What a run of well-behaved clients has made of the server. -/
structure RelayInv (config : Config) (before : List ClientEvent) (s : RelayServer)
    (calls : List PeerCall) : Prop where
  channel : ChannelInv config s calls
  peer : s.peer = true
  table : members s.players = lobby before
  informed : Audience.presentOnly.Informed (lobby before) (notes calls)
  greeted : Audience.Greeted (lobby before) (notes calls) (joins before)

namespace RelayInv

variable {config : Config} {premises : Premises} {before : List ClientEvent}
  {calls : List PeerCall}

/-- The server does to its table what the event says. -/
theorem act_event (h : RelayInv config before s calls)
    (hmax : premises.maxPlayers = config.maxPlayers) (hallowed : Allowed premises before event)
    (hadmits : Admits s event) (id : Int32) :
    act s (.packet (event.packet id) event.tickMs event.handlerMs) =
      lobbyAct (lobby before) event := by
  have hinv := h.channel.roster.inv
  by_cases hjoin : event.act = .join
  · simp only [Allowed, hjoin] at hallowed
    rcases hallowed with ⟨hfresh, _, hroom, _⟩
    -- A record has its address from an earlier join, and a client joins once.
    have hfind : findByAddress s.players event.address = none := by
      rw [findByAddress_eq_none]
      intro p hp haddr
      have hmem : p.member ∈ lobby before := h.table ▸ List.mem_map_of_mem hp
      rcases exists_of_joins (h.greeted.joined _ hmem) with ⟨earlier, hearlier, heq⟩
      exact hfresh earlier hearlier (heq.trans haddr)
    have hlen : s.players.length = (lobby before).length := by
      rw [← h.table, members, List.length_map]
    have hbound := hinv.table.length_lt
    -- The size is an `int` in the source; the table is short enough for that not to matter.
    have hnotfull : ¬ Int32.ofNat s.players.length ≥ s.config.maxPlayers := by
      rw [hinv.config, ← hmax, ge_iff_le, Int32.le_iff_toInt_le,
        Int32.toInt_ofNat_of_lt hbound, hlen]
      exact Int.not_le.2 hroom
    have hkind : (event.packet id).kind = .connectionNotification :=
      Packet.kind_of_bytes (ClientEvent.data_eq (by rw [hjoin]; rfl))
    have hbooked : s.bookkeep (event.packet id) event.tickMs = (s, true) :=
      bookkeep_of_stranger hfind event.tickMs
    simp only [act, h.peer, hbooked, dispatchAct, ClientEvent.packet_systemAddress, hfind, hkind,
      lobbyAct, hjoin, ← h.table, nextId_members]
    simp [hnotfull]
  · rcases hallowed.exists_member hjoin with ⟨m, hm, haddr⟩
    rw [← h.table] at hm
    rcases List.mem_map.1 hm with ⟨p, hp, rfl⟩
    have hfind : findByAddress s.players (event.packet id).systemAddress = some p := by
      have hself := findByAddress_of_mem hinv.table.addrs hp
      rw [show p.address = event.address from haddr] at hself
      exact hself
    have hadmitted : (s.bookkeep (event.packet id) event.tickMs).2 = true := by
      rw [bookkeep_of_find hfind]
      exact (account_accepts p event.tickMs).2 (hadmits p hfind)
    have hdispatch := dispatchAct_of_known (find_bookkeep hfind event.tickMs) hjoin id
    rw [members_bookkeep, h.table] at hdispatch
    simp only [act, h.peer, hadmitted, Bool.not_true, Bool.false_eq_true, if_false, if_true]
    exact hdispatch

theorem step (h : RelayInv config before s calls)
    (hmax : premises.maxPlayers = config.maxPlayers) (hallowed : Allowed premises before event)
    (hadmits : Admits s event) (id : Int32) :
    let result := Server.step s (.packet (event.packet id) event.tickMs event.handlerMs)
    RelayInv config (before ++ [event]) result.1 (calls ++ result.2) ∧
      Audience.presentOnly.Serves (lobby before) (notes result.2)
        (lobbyAct (lobby before) event) := by
  intro result
  have hwf := h.informed.wf
  have hstep := (stepsLobby_step h.channel.roster.inv.table
    (.packet (event.packet id) event.tickMs event.handlerMs)).step
  rw [h.act_event hmax hallowed hadmits id, h.table] at hstep
  have hserves := Audience.serves_of_step hwf hstep
    (fun k info hact => hallowed.absent hwf hact) (lobbyAct_ne_close _ _)
  -- The server's table is the lobby that the clients' events call for.
  have htable : members result.1.players = lobby (before ++ [event]) := by
    rw [lobby_snoc]
    exact hstep.eq_apply hwf
  have hpeer : result.1.peer = true := by
    have hkept := (keepsTable_tickPacket s (event.packet id) event.tickMs event.handlerMs).peer
    simp only [result, Server.step, h.peer, Bool.not_true, Bool.false_eq_true, if_false]
    exact hkept.trans h.peer
  refine ⟨⟨h.channel.step _, hpeer, htable, ?_, ?_⟩, hserves⟩
  · rw [lobby_snoc, notes_append]
    exact h.informed.step hserves
  · rw [lobby_snoc, notes_append, joins_snoc (lobby before)]
    exact h.greeted.step hwf hserves fun a k info hjoin => hallowed.fresh hjoin

end RelayInv

end Relay

end Attendance
end Crossover
