import Crossover.System.HostLobby

/-!
# HostRefinement — the dedicated server stands in for the host

The same well-behaved clients meet the dedicated server and a hosting mod.  Both keep the table of
the clients that have joined, hand out the same ids and tell their members enough, so in the end a
client that has spawned holds the same players behind either of them, but for the host's own hero.
-/

namespace Crossover

namespace Mod
namespace Session

variable {σ : Type}

/-- The net players with what the game says about their creatures' definitions. -/
def definitionTable (E : Engine σ) (s : Session σ) : List (Int32 × Option Int32) :=
  s.netPlayers.map fun netPlayer =>
    (netPlayer.networkId,
      (s.getCreatureFromLocalId E netPlayer.localId).map (E.defGlobalIndex s.engine))

theorem Follows.definitionTable {E : Engine σ} {Holds : σ → Int → Int32 → Prop} {s : Session σ}
    {l : LobbyListener} (hE : E.Lawful Holds) (h : Follows Holds s l) :
    s.definitionTable E = l.table.map fun e => (e.1, some e.2) := by
  have hplayers := h.netPlayers
  unfold Session.definitionTable
  generalize s.netPlayers = netPlayers, l.table = table at hplayers
  induction hplayers with
  | nil => rfl
  | @cons netPlayer entry rest table hfirst _ ih =>
    rcases hE.lookup _ _ _ hfirst.2 with ⟨player, creature, hplayer, hcreature, hdef⟩
    rw [List.map_cons, List.map_cons, ih]
    simp [getCreatureFromLocalId, hplayer, hcreature, hdef, hfirst.1]

/-! ## Opening a session as a host -/

/-- Creating the local player sends nothing. -/
theorem calls_createLocalNetPlayer (E : Engine σ) (s : Session σ) (networkId : Int32)
    (position : Wire.Vec3) : (s.createLocalNetPlayer E networkId position).calls = s.calls := by
  have hmovement : ∀ s : Session σ,
      (s.broadcastLocalNetPlayerMovement E networkId).calls = s.calls := by
    intro s
    unfold broadcastLocalNetPlayerMovement
    split <;> rfl
  have hrotation : ∀ s : Session σ,
      (s.broadcastLocalNetPlayerRotation E networkId).calls = s.calls := by
    intro s
    unfold broadcastLocalNetPlayerRotation
    split <;> rfl
  have hteleport : ∀ s : Session σ,
      (s.teleportLocalNetPlayerToHost E networkId position).calls = s.calls := by
    intro s
    unfold teleportLocalNetPlayerToHost
    split <;> rfl
  simp only [createLocalNetPlayer]
  split
  · rfl
  · split
    · rw [hteleport, hrotation, hmovement]
    · rw [hrotation, hmovement]

end Session
end Mod

namespace Attendance

open Wire Server Lobby History
open Mod.Session (LobbyListener Follows)

/-! ## The hosting mod -/

section Host

variable {σ : Type}

/-- The host takes the client's packet; the client claims the id that this host gave it. -/
def hostStep (E : Mod.Engine σ) (s : Mod.Session σ) (event : ClientEvent) :
    Except Mod.Fault (Mod.Session σ) :=
  s.update E 0 (event.packet (assignedId event.address s.calls))

/-- A session that a player has opened with `Host`, behind these events. -/
def hostRun (E : Mod.Engine σ) (process : Mod.Process σ) (port : UInt16)
    (events : List ClientEvent) : Except Mod.Fault (Mod.Session σ) :=
  Fallible.run (hostStep E) (Mod.Session.opened E process (.host port true)) events

/-- The host's own addresses, and the one that is none. -/
def reservedAddresses (E : Mod.Engine σ) (process : Mod.Process σ) (port : UInt16) :
    List SystemAddress :=
  [unassignedSystemAddress, E.systemAddress "127.0.0.1" port, process.boundAddress]

variable {E : Mod.Engine σ} {Holds : σ → Int → Int32 → Prop} {process : Mod.Process σ}
  {port : UInt16}

theorem hosts_opened (hE : E.Lawful Holds) (hhero : ∃ d, Holds process.engine 0 d) :
    let s := Mod.Session.opened E process (.host port true)
    Hosts E Holds (E.systemAddress "127.0.0.1" port) process.boundAddress [] s ∧ s.calls = [] := by
  intro s
  have hfree : Mod.Session.getFreeNetworkId [] = 0 := rfl
  have hread : (Mod.Session.readCreateLocalNetPlayer (BitStream.write {} (0 : Int32))).1 = 0 := by
    decide
  let connection : Mod.Connection := { address := process.boundAddress, networkId := 0 }
  let started : Mod.Session σ :=
    { engine := process.engine
      resolveMovementAccelerationCallbacks := process.resolveMovementAccelerationCallbacks
      resolveFacingDirectionCallbacks := process.resolveFacingDirectionCallbacks
      network :=
        { active := true, boundAddress := process.boundAddress, settings := { port := port }
          self := connection, connections := [connection] } }
  let position := (Mod.Session.readCreateLocalNetPlayer (BitStream.write {} (0 : Int32))).2
  have hopened : s = started.createLocalNetPlayer E 0 position := by
    simp only [s, Mod.Session.opened, Mod.Session.host, Mod.Session.made, hfree, hread]
    rfl
  have hready : started.Ready Holds := ⟨rfl, rfl, rfl, hhero⟩
  rcases hready.assign hE process.boundAddress 0 position with ⟨s', hassigned, hfollows, _⟩
  -- A host assigns its own id to itself the way a client is assigned one.
  have hsame : s' = s := by
    rw [hopened]
    exact (Except.ok.inj hassigned).symm
  rw [hsame] at hfollows
  have hnetwork : s.network = started.network := by
    rw [hopened, Mod.Session.network_createLocalNetPlayer]
  refine ⟨⟨?_, ?_, ?_, ?_, _, hfollows, rfl, ⟨List.nodup_nil, ?_⟩, ?_⟩, ?_⟩
  · rw [hnetwork]
  · rw [hnetwork]
  · rw [hnetwork]
  · rw [hnetwork]
    rfl
  · intro id _ hid
    cases hid
  · intro e
    simp
  · rw [hopened, Mod.Session.calls_createLocalNetPlayer]

/-- What a run of well-behaved clients has made of the host. -/
structure HostInv (E : Mod.Engine σ) (Holds : σ → Int → Int32 → Prop) (own bound : SystemAddress)
    (before : List ClientEvent) (s : Mod.Session σ) : Prop where
  hosts : Hosts E Holds own bound (lobby before) s
  sends : ∀ call ∈ s.calls, SendsMessage call
  outside : Outside [unassignedSystemAddress, own, bound] (lobby before)
  informed : hostAudience.Informed (lobby before) (notes s.calls)
  greeted : Audience.Greeted (lobby before) (notes s.calls) (joins before)
  room : (lobby before).length < 2 ^ 31 - 1

namespace HostInv

variable {own bound : SystemAddress} {before : List ClientEvent} {s : Mod.Session σ}
  {premises : Premises} {event : ClientEvent}

/-- A client claims the id its table entry has. -/
theorem assignedId_eq (h : HostInv E Holds own bound before s) {m : LobbyMember}
    (hm : m ∈ lobby before) : assignedId m.addr s.calls = m.id := by
  rw [assignedId, assignedIds_eq h.sends, h.greeted.assigned hm]
  rfl

/-- The host does to its table what the event says. -/
theorem hostStep_steps (hE : E.Lawful Holds) (h : HostInv E Holds own bound before s)
    (hallowed : Allowed premises before event) :
    ∃ s' sent, hostStep E s event = .ok s' ∧
      HostSteps E Holds own bound (lobby before) (lobbyAct (lobby before) event) s s' sent := by
  have hunassigned : unassignedSystemAddress ∈ [unassignedSystemAddress, own, bound] := by simp
  have hupdate : ∀ {m : Message} {networkId : Int32},
      ClientEvent.message networkId event.act = some m → m.Countable →
        s.update E 0 (event.packet networkId) = s.receive E event.address m := by
    intro m networkId hm hcount
    exact Mod.Session.update_of_bytes E 0 h.hosts.active (ClientEvent.data_eq hm) hcount
  -- A join comes from a new address; everything else from a member that knows its id.
  by_cases hjoin : event.act = .join
  · have hact : lobbyAct (lobby before) event =
        .join event.address (nextId (lobby before)) 0 := by simp only [lobbyAct, hjoin]
    have hfresh : ∀ q ∈ lobby before, q.addr ≠ event.address := by
      intro q hq heq
      exact hallowed.fresh hact (heq ▸ h.greeted.joined q hq)
    rw [hact, hostStep, hupdate (m := .connectionNotification) (by rw [hjoin]; rfl) trivial]
    exact host_join hE h.hosts hfresh h.room
  · rcases hallowed.exists_member hjoin with ⟨m, hm, haddr⟩
    have hat := memberAt_of_mem h.outside.wf hm haddr
    have hid := h.assignedId_eq hm
    rw [haddr] at hid
    have hhost : s.isHost = true := by
      rcases h.hosts.hero hE with ⟨p, _, hp, hzero, _⟩
      simp [Mod.Session.isHost, hp, hzero]
    have hmotion : (if m.present then Act.relay m.id else Act.idle : LobbyAct) = .idle ∨
        (if m.present then Act.relay m.id else Act.idle : LobbyAct) = .relay m.id := by
      cases m.present with
      | true => exact Or.inr rfl
      | false => exact Or.inl rfl
    rw [hostStep, hid]
    cases hact : event.act with
    | join => exact absurd hact hjoin
    | spawn defGlobalIndex position =>
      have habsent : m.present = false := by
        simp only [Allowed, hact] at hallowed
        rcases hallowed with ⟨q, hq, hqaddr, habsent⟩
        rw [h.outside.wf.eq_of_addr hm hq (haddr.trans hqaddr.symm)]
        exact habsent
      rw [hupdate (m := .createNetPlayer m.id defGlobalIndex position) (by rw [hact]; rfl) trivial,
        ← haddr]
      simp only [lobbyAct, hact, haddr, hat]
      rw [← haddr]
      exact host_spawn hE h.hosts h.outside hunassigned h.room hm habsent defGlobalIndex position
    | move position acceleration =>
      rw [hupdate (m := .playerMovement m.id position acceleration) (by rw [hact]; rfl) trivial]
      simp only [lobbyAct, hact, hat]
      exact ⟨_, _, rfl, host_motion h.hosts h.outside hunassigned hmotion
        (m := .playerMovement m.id position acceleration) trivial rfl
        (Mod.Session.receive_motion_host h.hosts.active hhost m.id position acceleration).1
        (Mod.Session.receiveNetPlayerMovement_ids s m.id position acceleration)⟩
    | rotate up forward =>
      rw [hupdate (m := .playerRotation m.id up forward) (by rw [hact]; rfl) trivial]
      simp only [lobbyAct, hact, hat]
      exact ⟨_, _, rfl, host_motion h.hosts h.outside hunassigned hmotion
        (m := .playerRotation m.id up forward) trivial rfl
        (Mod.Session.receive_motion_host h.hosts.active hhost m.id up forward).2
        (Mod.Session.receiveNetPlayerRotation_ids s m.id up forward)⟩
    | leave lost =>
      simp only [lobbyAct, hact, hat]
      -- Lost or closed, the two packets run the same handler.
      have hloss : s.update E 0 (event.packet m.id) =
          s.handleLoss E 0 (event.packet m.id) := by
        rcases ClientEvent.isDrop_packet hact m.id with hkind | hkind <;>
          simp [Mod.Session.update, h.hosts.active, hkind]
      rw [hloss]
      exact host_leave hE h.hosts h.outside hunassigned (by simp) (by simp) hm haddr.symm

/-- The table stays within the capacity, so its size stays an `int`. -/
theorem room_apply (h : HostInv E Holds own bound before s)
    (hallowed : Allowed premises before event) :
    (apply (lobby before) (lobbyAct (lobby before) event)).length < 2 ^ 31 - 1 := by
  have hroom := h.room
  cases hact : lobbyAct (lobby before) event with
  | join a id info =>
    have hjoin := (of_join hact).1
    simp only [Allowed, hjoin] at hallowed
    -- Only a join makes the table longer, and `Allowed` keeps it below the slots.
    have hslots := premises.slots.toInt_lt
    simp only [apply, List.length_append, List.length_singleton]
    omega
  | announce id info => simpa [apply] using hroom
  | leave id => exact Nat.lt_of_le_of_lt (List.length_filter_le _ _) hroom
  | close => exact absurd hact (lobbyAct_ne_close _ _)
  | _ => exact hroom

theorem step (hE : E.Lawful Holds) (h : HostInv E Holds own bound before s)
    (hreserved : premises.reserved = [unassignedSystemAddress, own, bound])
    (hallowed : Allowed premises before event) :
    ∃ s' sent, hostStep E s event = .ok s' ∧ s'.calls = s.calls ++ sent ∧
      HostInv E Holds own bound (before ++ [event]) s' ∧
      hostAudience.Serves (lobby before) (notes sent) (lobbyAct (lobby before) event) := by
  rcases h.hostStep_steps hE hallowed with ⟨s', sent, hok, hsteps⟩
  have hinformed : hostAudience.Informed (lobby (before ++ [event])) (notes s'.calls) := by
    rw [lobby_snoc, hsteps.calls, notes_append]
    exact h.informed.step hsteps.serves
  refine ⟨s', sent, hok, hsteps.calls, ⟨?_, ?_, ?_, hinformed, ?_, ?_⟩, hsteps.serves⟩
  · rw [lobby_snoc]
    exact hsteps.hosts
  · rw [hsteps.calls]
    intro call hcall
    rcases List.mem_append.1 hcall with hcall | hcall
    · exact h.sends call hcall
    · exact hsteps.sends call hcall
  · refine ⟨hinformed.wf, hinformed.foreign, ?_⟩
    intro m hm
    rw [lobby_snoc] at hm
    rcases mem_apply hm with ⟨q, hq, haddr, _⟩ | ⟨info, hact⟩
    · exact haddr ▸ h.outside.addrs q hq
    · -- The new address is none of the reserved ones, which a client cannot have.
      rcases of_join hact with ⟨hjoin, haddr⟩
      simp only [Allowed, hjoin] at hallowed
      rw [haddr, ← hreserved]
      exact hallowed.2.1
  · rw [lobby_snoc, hsteps.calls, notes_append, joins_snoc (lobby before)]
    exact h.greeted.step h.outside.wf hsteps.serves fun a id info hact => hallowed.fresh hact
  · rw [lobby_snoc]
    exact h.room_apply hallowed

end HostInv

/-- A host survives well-behaved clients. -/
theorem host_run (hE : E.Lawful Holds) (hhero : ∃ d, Holds process.engine 0 d)
    {premises : Premises} (hreserved : premises.reserved = reservedAddresses E process port)
    {events : List ClientEvent} (hbehaved : WellBehaved premises events) :
    ∃ session, hostRun E process port events = .ok session ∧
      HostInv E Holds (E.systemAddress "127.0.0.1" port) process.boundAddress events session := by
  induction events using List.reverseRecOn with
  | nil =>
    rcases hosts_opened hE hhero with ⟨hhosts, hcalls⟩
    refine ⟨_, rfl, hhosts, ?_, ⟨⟨List.nodup_nil, List.nodup_nil⟩, ?_, ?_⟩, ?_, ?_, by decide⟩
    · rw [hcalls]
      simp
    · simp [lobby]
    · simp [lobby]
    · rw [hcalls]
      exact Audience.Informed.nil
    · rw [hcalls]
      exact Audience.greeted_nil
  | append_singleton events event ih =>
    rcases every_snoc.1 hbehaved with ⟨hbefore, hlast⟩
    rcases ih hbefore with ⟨session, hrun, hinv⟩
    rcases hinv.step hE hreserved hlast with ⟨s', sent, hok, _, hinv', _⟩
    exact ⟨s', Fallible.run_snoc_ok.2 ⟨session, hrun, hok⟩, hinv'⟩

end Host

/-! ## The dedicated server -/

section Relay

variable {config : Config} {nowMs : Int} {restored : Option Vec3} {premises : Premises}
  {events : List ClientEvent}

theorem relay_run (hmax : premises.maxPlayers = config.maxPlayers)
    (hbehaved : WellBehaved premises events) (hfree : Unhindered config nowMs restored events) :
    RelayInv config events (relayRun config nowMs restored events).1
      (relayRun config nowMs restored events).2 := by
  induction events using List.reverseRecOn with
  | nil =>
    exact ⟨channelInv_run config nowMs restored [], rfl, rfl, Audience.Informed.nil,
      Audience.greeted_nil⟩
  | append_singleton events event ih =>
    rcases every_snoc.1 hbehaved with ⟨hbefore, hlast⟩
    rcases every_snoc.1 hfree with ⟨hfreeBefore, hadmits⟩
    have hinv := ih hbefore hfreeBefore
    rw [relayRun_snoc]
    exact (hinv.step hmax hlast hadmits _).1

end Relay

/-! ## A client between the two -/

section Clients

variable {A : Audience SystemAddress Int32 Int32} {T : List LobbyMember} {calls : List PeerCall}
  {used : List SystemAddress} {m : LobbyMember}

/-- The messages to a member: its assignment first, then nothing about itself. -/
theorem messages_of_greeted (hsends : ∀ call ∈ calls, SendsMessage call)
    (hgreeted : Audience.Greeted T (notes calls) used) (hm : m ∈ T) :
    ∃ position rest, orderedMessages m.addr calls =
      .createLocalNetPlayer m.id position :: rest ∧
      ∀ said ∈ rest, ∀ k, messageNote said ≠ some (.assign k) ∧
        (messageNote said = some (.destroy k) → (some m.id : Option Int32) ≠ some k) := by
  rcases hgreeted.first m hm with ⟨later, hheard, hassign, hdestroy⟩
  have hnotes : (orderedMessages m.addr calls).filterMap messageNote = .assign m.id :: later :=
    (notes_orderedMessages hsends m.addr).trans hheard
  have hsaid : ∀ said ∈ orderedMessages m.addr calls, (messageNote said).isSome = true :=
    fun said hmem => (mem_orderedMessages hsends hmem).2
  generalize orderedMessages m.addr calls = messages at hnotes hsaid
  cases messages with
  | nil => cases hnotes
  | cons first rest =>
    rcases Option.isSome_iff_exists.1 (hsaid first List.mem_cons_self) with ⟨note, hnote⟩
    rw [List.filterMap_cons, hnote] at hnotes
    rcases List.cons.inj hnotes with ⟨rfl, hrest⟩
    -- The one message with an assignment for its note.
    cases first with
    | createLocalNetPlayer networkId position =>
      cases hnote
      refine ⟨position, rest, rfl, ?_⟩
      intro said hmem k
      refine ⟨?_, ?_⟩
      · intro heq
        exact hassign k (hrest ▸ List.mem_filterMap.2 ⟨said, hmem, heq⟩)
      · intro heq hk
        obtain rfl := Option.some.inj hk
        exact hdestroy (hrest ▸ List.mem_filterMap.2 ⟨said, hmem, heq⟩)
    | _ => cases hnote

/-- A mod client that handles its messages holds what the service has told it. -/
theorem client_follows (hsends : ∀ call ∈ calls, SendsMessage call)
    (hinformed : A.Informed T (notes calls)) (hgreeted : Audience.Greeted T (notes calls) used)
    (hm : m ∈ T) {τ : Type} {C : Mod.Engine τ} {Holds : τ → Int → Int32 → Prop}
    (hC : C.Lawful Holds) {client : Mod.Session τ} (hready : client.Ready Holds)
    (server : SystemAddress) :
    ∃ client' l, client.handleAll C server (orderedMessages m.addr calls) = .ok client' ∧
      Follows Holds client' l ∧ A.Knows T m l := by
  rcases messages_of_greeted hsends hgreeted hm with ⟨position, rest, hmessages, hforeign⟩
  rcases hready.assign hC server m.id position with ⟨started, hassigned, hfollows, hactive⟩
  have hcount : ∀ said ∈ rest, said.Countable ∧ (messageNote said).isSome = true := by
    intro said hmem
    exact mem_orderedMessages (a := m.addr) hsends (hmessages ▸ List.mem_cons_of_mem _ hmem)
  rcases hfollows.handleAll hC hactive server hcount hforeign with ⟨client', hrun, hfollows', _⟩
  refine ⟨client', _, ?_, hfollows', ?_⟩
  · have hfirst := (Mod.Session.update_packetFrom (E := C) hready.active
      (m := .createLocalNetPlayer m.id position) trivial server).trans hassigned
    rw [hmessages]
    exact Fallible.run_cons_ok.2 ⟨started, hfirst, hrun⟩
  · -- Handling the messages is listening to their notes from the start.
    have hknows := hinformed.knows m hm
    have hheard : heard (notes calls) m.addr =
        [] ++ .assign m.id :: rest.filterMap messageNote := by
      rw [heard, ← notes_orderedMessages hsends, hmessages]
      rfl
    rw [hheard, Listener.after_assign] at hknows
    exact hknows

end Clients

/-! ## The two services -/

section Services

variable {σ : Type}

/-- Behind either service a client that has spawned holds the same players, each of them once: the
others that have spawned, and behind the host also the host's own hero. -/
def SameTables (T : List LobbyMember) (relayCalls hostCalls : List PeerCall) : Prop :=
  ∀ m ∈ T, m.present = true →
    ∀ {τ : Type} (C : Mod.Engine τ) (Holds : τ → Int → Int32 → Prop), C.Lawful Holds →
      ∀ client : Mod.Session τ, client.Ready Holds →
        ∀ relayAddress hostAddress : SystemAddress,
          ∃ client₁ client₂,
            client.handleAll C relayAddress (orderedMessages m.addr relayCalls) = .ok client₁ ∧
            client.handleAll C hostAddress (orderedMessages m.addr hostCalls) = .ok client₂ ∧
            (client₁.definitionTable C).Perm
              ((client₂.definitionTable C).filter fun e => e.1 != 0) ∧
            ((client₁.definitionTable C).map Prod.fst).Nodup ∧
            ((client₂.definitionTable C).map Prod.fst).Nodup ∧
            (client₁.definitionTable C).Perm
              ((peerEntries T m.id).map fun e => (e.1, some e.2))

/-- Behind these events both services have assigned the same ids, one to each client that is still
there, and their clients hold the same tables. -/
def StandsIn (config : Config) (nowMs : Int) (restored : Option Vec3) (E : Mod.Engine σ)
    (process : Mod.Process σ) (port : UInt16) (events : List ClientEvent) : Prop :=
  ∃ session, hostRun E process port events = .ok session ∧
    (∀ a, assignedIds a (relayRun config nowMs restored events).2 =
      assignedIds a session.calls) ∧
    (∀ m ∈ lobby events, assignedIds m.addr session.calls = [m.id]) ∧
    SameTables (lobby events) (relayRun config nowMs restored events).2 session.calls

/-- The clients stay within both capacities and away from the host's own addresses. -/
def premisesOf (config : Config) (E : Mod.Engine σ) (process : Mod.Process σ) (port : UInt16)
    (slots : Int32) : Premises where
  reserved := reservedAddresses E process port
  maxPlayers := config.maxPlayers
  slots := slots

variable {config : Config} {nowMs : Int} {restored : Option Vec3} {E : Mod.Engine σ}
  {Holds : σ → Int → Int32 → Prop} {process : Mod.Process σ} {port : UInt16} {slots : Int32}
  {events : List ClientEvent}

section Tables

variable {A : Audience SystemAddress Int32 Int32} {T : List LobbyMember} {calls : List PeerCall}
  {used : List SystemAddress} {m : LobbyMember} {τ : Type} {C : Mod.Engine τ}
  {HoldsIn : τ → Int → Int32 → Prop} {client : Mod.Session τ}

/-- Handling its messages leaves a member that is present with its peers and whatever the service
hosts itself. -/
theorem client_table (hsends : ∀ call ∈ calls, SendsMessage call)
    (hinformed : A.Informed T (notes calls)) (hgreeted : Audience.Greeted T (notes calls) used)
    (hm : m ∈ T) (hpresent : m.present = true) [DecidablePred A.hosted] (hC : C.Lawful HoldsIn)
    (hready : client.Ready HoldsIn) (server : SystemAddress) :
    ∃ client', client.handleAll C server (orderedMessages m.addr calls) = .ok client' ∧
      ((client'.definitionTable C).filter fun e => !decide (A.hosted e.1)).Perm
        ((peerEntries T m.id).map fun e => (e.1, some e.2)) ∧
      ((client'.definitionTable C).map Prod.fst).Nodup := by
  rcases client_follows hsends hinformed hgreeted hm hC hready server with
    ⟨client', l, hrun, hfollows, hknows⟩
  have hids : (l.table.map fun e : Int32 × Int32 => (e.1, some e.2)).map Prod.fst = l.ids := by
    simp [Listener.ids, Function.comp_def]
  refine ⟨client', hrun, ?_, ?_⟩
  · rw [hfollows.definitionTable hC, List.filter_map]
    exact (hknows.perm hinformed.wf hinformed.foreign hpresent).map _
  · rw [hfollows.definitionTable hC, hids]
    exact hknows.distinct.nodup

/-- Behind the relay, which hosts nobody. -/
theorem relay_table (hsends : ∀ call ∈ calls, SendsMessage call)
    (hinformed : Audience.presentOnly.Informed T (notes calls))
    (hgreeted : Audience.Greeted T (notes calls) used) (hm : m ∈ T) (hpresent : m.present = true)
    (hC : C.Lawful HoldsIn) (hready : client.Ready HoldsIn) (server : SystemAddress) :
    ∃ client', client.handleAll C server (orderedMessages m.addr calls) = .ok client' ∧
      (client'.definitionTable C).Perm
        ((peerEntries T m.id).map fun e => (e.1, some e.2)) ∧
      ((client'.definitionTable C).map Prod.fst).Nodup := by
  let A : Audience SystemAddress Int32 Int32 := Audience.presentOnly
  let _ : DecidablePred A.hosted := fun _ => instDecidableFalse
  rcases client_table hsends hinformed hgreeted hm hpresent hC hready server with
    ⟨client', hrun, hperm, hnodup⟩
  have hall : ((client'.definitionTable C).filter fun _ => !decide False) =
      client'.definitionTable C := by simp
  exact ⟨client', hrun, hall ▸ hperm, hnodup⟩

/-- Behind the host, whose own hero is player 0. -/
theorem host_table (hsends : ∀ call ∈ calls, SendsMessage call)
    (hinformed : hostAudience.Informed T (notes calls))
    (hgreeted : Audience.Greeted T (notes calls) used) (hm : m ∈ T) (hpresent : m.present = true)
    (hC : C.Lawful HoldsIn) (hready : client.Ready HoldsIn) (server : SystemAddress) :
    ∃ client', client.handleAll C server (orderedMessages m.addr calls) = .ok client' ∧
      ((client'.definitionTable C).filter fun e => e.1 != 0).Perm
        ((peerEntries T m.id).map fun e => (e.1, some e.2)) ∧
      ((client'.definitionTable C).map Prod.fst).Nodup := by
  let _ : DecidablePred hostAudience.hosted := fun id => decEq id 0
  rcases client_table hsends hinformed hgreeted hm hpresent hC hready server with
    ⟨client', hrun, hperm, hnodup⟩
  have hothers : ((client'.definitionTable C).filter fun e => e.1 != 0) =
      (client'.definitionTable C).filter fun e => !decide (e.1 = 0) :=
    List.filter_congr fun e _ => by rw [bne, beq_eq_decide]
  exact ⟨client', hrun, hothers ▸ hperm, hnodup⟩

end Tables

theorem same_tables {T : List LobbyMember} {relayCalls hostCalls : List PeerCall}
    {used : List SystemAddress} (hrelaySends : ∀ call ∈ relayCalls, SendsMessage call)
    (hhostSends : ∀ call ∈ hostCalls, SendsMessage call)
    (hrelay : Audience.presentOnly.Informed T (notes relayCalls))
    (hhost : hostAudience.Informed T (notes hostCalls))
    (hrelayGreeted : Audience.Greeted T (notes relayCalls) used)
    (hhostGreeted : Audience.Greeted T (notes hostCalls) used) :
    SameTables T relayCalls hostCalls := by
  intro m hm hpresent τ C Holds hC client hready relayAddress hostAddress
  rcases relay_table hrelaySends hrelay hrelayGreeted hm hpresent hC hready relayAddress with
    ⟨client₁, hrun₁, hpeers₁, hnodup₁⟩
  rcases host_table hhostSends hhost hhostGreeted hm hpresent hC hready hostAddress with
    ⟨client₂, hrun₂, hpeers₂, hnodup₂⟩
  exact ⟨client₁, client₂, hrun₁, hrun₂, hpeers₁.trans hpeers₂.symm, hnodup₁, hnodup₂, hpeers₁⟩

/-- Both services answer a join with the same id, and nothing else assigns one. -/
theorem same_ids (hE : E.Lawful Holds) (hhero : ∃ d, Holds process.engine 0 d)
    (hbehaved : WellBehaved (premisesOf config E process port slots) events)
    (hfree : Unhindered config nowMs restored events) {session : Mod.Session σ}
    (hrun : hostRun E process port events = .ok session) (a : SystemAddress) :
    (heard (notes (relayRun config nowMs restored events).2) a).filterMap Note.assigned =
      (heard (notes session.calls) a).filterMap Note.assigned := by
  induction events using List.reverseRecOn generalizing session with
  | nil =>
    have hopened := Except.ok.inj hrun
    rw [← hopened, (hosts_opened hE hhero).2]
    rfl
  | append_singleton events event ih =>
    rcases every_snoc.1 hbehaved with ⟨hbefore, hlast⟩
    rcases every_snoc.1 hfree with ⟨hfreeBefore, hadmits⟩
    rcases Fallible.run_snoc_ok.1 hrun with ⟨earlier, hearlier, hstep⟩
    rcases host_run hE hhero rfl hbefore with ⟨earlier', hearlier', hhost⟩
    obtain rfl := Except.ok.inj (hearlier.symm.trans hearlier')
    rcases hhost.step hE rfl hlast with ⟨session', sent, hok, hcalls, _, hserves⟩
    obtain rfl := Except.ok.inj (hstep.symm.trans hok)
    -- Both services serve the same act of the same table, whatever else they send.
    have hrelay := relay_run rfl hbefore hfreeBefore
    have hrelayServes := (hrelay.step rfl hlast hadmits
      (assignedId event.address (relayRun config nowMs restored events).2)).2
    rw [relayRun_snoc, relayStep, hcalls, notes_append, notes_append, heard_append, heard_append,
      List.filterMap_append, List.filterMap_append, ih hbefore hfreeBefore hearlier,
      hserves.assigned hhost.outside.wf a]
    exact congrArg _ (hrelayServes.assigned hrelay.informed.wf a)

/-- What a client does at the start of the first second. -/
def eventOf (address : SystemAddress) (act : ClientAct) : ClientEvent where
  address := address
  guid := 0
  act := act
  tickMs := 0
  handlerMs := 0

/-- Two clients join and spawn, the first leaves, the second moves. -/
def visits : List ClientEvent :=
  [eventOf firstAddress .join, eventOf secondAddress .join, eventOf firstAddress (.spawn 2000 {}),
    eventOf secondAddress (.spawn 2001 {}), eventOf firstAddress (.leave true),
    eventOf secondAddress (.move {} {})]

/-- Two clients join, the first spawns and the second moves, all within a second. -/
def fidgeting (moves : Nat) : List ClientEvent :=
  [eventOf firstAddress .join, eventOf secondAddress .join,
    eventOf firstAddress (.spawn 2000 {})] ++
      List.replicate moves (eventOf secondAddress (.move {} {}))

/-- The spawn of the second client is its 601st packet of that second. -/
def lateSpawn : List ClientEvent :=
  fidgeting 600 ++ [eventOf secondAddress (.spawn 2001 {})]

/-- The table while the second client moves. -/
def fidgetingLobby : List LobbyMember :=
  [{ addr := firstAddress, id := 1, present := true, info := 2000 },
    { addr := secondAddress, id := 2, present := false, info := 0 }]

theorem fidgeting_succ (moves : Nat) :
    fidgeting (moves + 1) = fidgeting moves ++ [eventOf secondAddress (.move {} {})] := by
  simp [fidgeting, List.replicate_succ']

theorem lobby_fidgeting (moves : Nat) : lobby (fidgeting moves) = fidgetingLobby := by
  induction moves with
  | zero => decide +kernel
  | succ moves ih =>
    rw [fidgeting_succ, lobby_snoc, ih]
    decide +kernel

theorem wellBehaved_lateSpawn :
    WellBehaved (premisesOf {} (Mod.Engine.table Mod.Session.exampleAddress)
      Mod.Session.hostProcess 60000 4) lateSpawn := by
  have hmember : { addr := secondAddress, id := 2, present := false, info := 0 } ∈
      fidgetingLobby := by decide
  have hmoves : ∀ moves, WellBehaved (premisesOf {}
      (Mod.Engine.table Mod.Session.exampleAddress) Mod.Session.hostProcess 60000 4)
      (fidgeting moves) := by
    intro moves
    induction moves with
    | zero => decide +kernel
    | succ moves ih =>
      rw [fidgeting_succ]
      refine every_snoc.2 ⟨ih, ?_⟩
      simp only [Allowed, eventOf, lobby_fidgeting]
      exact ⟨_, hmember, rfl⟩
  refine every_snoc.2 ⟨hmoves 600, ?_⟩
  simp only [Allowed, eventOf, lobby_fidgeting]
  exact ⟨_, hmember, rfl, rfl⟩

end Services

end Attendance
end Crossover
