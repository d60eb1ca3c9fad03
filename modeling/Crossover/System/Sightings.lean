import Crossover.Lib.Past
import Crossover.Mod.Motion
import Crossover.Server.Isolation
import Crossover.System.SpawnGate
import Crossover.System.WireFormat

/-!
# Sightings — where the motion a client shows comes from

A net player's vectors are followed back from the client that holds them: they have arrived in a
message, the server has sent that message for the motion of the player who held the id, and if that
player is a mod client too, a closure of its own has read them off its creature.  Each link is what
one step can do; `Past.Once.of_appears` finds the step.
-/

namespace Crossover

open Wire

/-! ## Messages -/

namespace Mod
namespace Motion

variable {motion : Motion} {networkId : Int32} {seen : Vec3 × Vec3}

/-- The message for a player and its two vectors. -/
def told : Motion → Int32 → Vec3 × Vec3 → Message
  | .movement, networkId, seen => .playerMovement networkId seen.1 seen.2
  | .rotation, networkId, seen => .playerRotation networkId seen.1 seen.2

theorem kind_told : (motion.told networkId seen).kind = motion.kind := by
  cases motion <;> rfl

theorem head?_told : (motion.told networkId seen).bytes.head? = some motion.messageId := by
  cases motion <;> rfl

theorem data_motionMessage :
    (Session.motionMessage motion.messageId networkId seen.1 seen.2).data =
      (motion.told networkId seen).bytes := by
  cases motion <;> rfl

theorem bytes_told : (motion.told networkId seen).bytes =
    motion.messageId :: (encode networkId ++ (encode seen.1 ++ (encode seen.2 ++ []))) := by
  cases motion <;> simp [told, messageId, Message.bytes]

theorem readMotion_told {packet : Packet}
    (h : packet.data = (motion.told networkId seen).bytes) :
    Session.readMotion (Session.payload packet) = (networkId, seen) := by
  rw [bytes_told] at h
  exact Session.readMotion_of_remaining (Session.remaining_payload h)

theorem kind_injective : Function.Injective kind := by
  intro motion other h
  cases motion <;> cases other <;> first | rfl | cases h

end Motion

namespace Session

variable {σ : Type}

/-- Only an assignment of id 0 makes a host of a session. -/
theorem isHost_step {E : Engine σ} {s s' : Session σ} {event : SessionEvent σ}
    (h : s.step E event = .ok s') (hhost : s'.isHost = true) :
    s.isHost = true ∨ ∃ packet rounds, event = .packet packet rounds ∧
      packet.kind = .createLocalNetPlayer ∧
      (readCreateLocalNetPlayer (payload packet)).1 = 0 := by
  have hsame : s'.localNetPlayer = s.localNetPlayer → s.isHost = true := by
    intro heq
    simpa only [isHost, heq] using hhost
  cases step_change h with
  | fewer hfewer =>
    rcases hfewer.localNetPlayer with heq | ⟨hnone, _⟩
    · exact Or.inl (hsame heq)
    · simp [isHost, hnone] at hhost
  | createNetPlayer _ _ hcreated => exact Or.inl (hsame (createNetPlayer_cases hcreated).1)
  | createNetPlayers hloop =>
    refine Or.inl (hsame ?_)
    refine createNetPlayersLoop_rel (R := fun s s' => s'.localNetPlayer = s.localNetPlayer)
      (fun _ => rfl) (fun h h' => h'.trans h) ?_ hloop
    intro s s' networkId position defGlobalIndex hcreated
    rcases createNetPlayers_cases hcreated with rfl | hadded
    · rfl
    · exact (createNetPlayer_cases hadded).1
  | @createLocalNetPlayer packet rounds s₀ _ hkind _ hlocal _ =>
    rcases createLocalNetPlayer_cases E s₀ (readCreateLocalNetPlayer (payload packet)).1
      (readCreateLocalNetPlayer (payload packet)).2 with ⟨_, hkept⟩ | ⟨_, hset, _⟩
    · exact Or.inl (hsame (by rw [hkept, hlocal]))
    · refine Or.inr ⟨packet, rounds, rfl, hkind, ?_⟩
      simpa [isHost, hset.localNetPlayer] using hhost

theorem calls_opened (E : Engine σ) (process : Process σ) (ip : String) (port : UInt16)
    (startup connected : Bool) :
    (opened E process (.connect ip port startup connected)).calls = [] ∧
      (opened E process (.connect ip port startup connected)).netPlayers = [] ∧
      (opened E process (.connect ip port startup connected)).localNetPlayer = none := by
  simp only [opened, connect]
  split
  · exact ⟨rfl, rfl, rfl⟩
  · split <;> exact ⟨rfl, rfl, rfl⟩

end Session
end Mod

/-! ## The server's part -/

namespace Server

open Crossover.Mod (Motion)

/-- The server takes motion from a spawned player with this id. -/
structure Takes (motion : Motion) (s : RelayServer) (packet : Packet) (tickMs : Int)
    (networkId : Int32) (seen : Vec3 × Vec3) : Prop where
  kind : packet.kind = motion.kind
  long : kSizePlayerMovement ≤ packet.length
  entitled : ∃ self, Entitled s packet tickMs self ∧ self.networkId = networkId
  fields : (readMotion packet).2 = seen

/-- What can be sent in a step, and why. -/
inductive Sent (s : RelayServer) (send : Send) : Event → Prop
  | assigned {event : Event} (networkId : Int32) (position : Vec3) : networkId ≠ 0 →
      send.data = (Message.createLocalNetPlayer networkId position).bytes → Sent s send event
  | motion {motion : Motion} {packet : Packet} {tickMs handlerMs : Int} {networkId : Int32}
      {seen : Vec3 × Vec3} : Takes motion s packet tickMs networkId seen →
      send.address ≠ packet.systemAddress → send.data = (motion.told networkId seen).bytes →
      Sent s send (.packet packet tickMs handlerMs)
  | players {event : Event} {id : UInt8} : send.data.head? = some id →
      id ∈ [idCreateNetPlayer, idCreateNetPlayers, idDestroyNetPlayer] → Sent s send event

section Steps

variable {config : Config} {s : RelayServer} {send : Send} {event : Event}

theorem allocateNetworkId_ne_zero {players : List Player} (hlen : players.length < 2 ^ 31 - 1) :
    allocateNetworkId players ≠ 0 := by
  intro hzero
  have hpositive := (toInt_allocateNetworkId hlen).1
  rw [hzero] at hpositive
  exact absurd hpositive (by decide)

/-- A table with a free slot is short. -/
theorem length_of_room (h : ¬ Int32.ofNat s.players.length ≥ s.config.maxPlayers)
    (hinv : TableInv s) : s.players.length < 2 ^ 31 - 1 := by
  have hsize := hinv.size
  have hmax := s.config.maxPlayers.toInt_lt
  by_contra hlong
  -- Then the table has as many players as the largest `int` says.
  have hlength : s.players.length = 2 ^ 31 - 1 := by omega
  apply h
  rw [ge_iff_le, Int32.le_iff_toInt_le, hlength]
  have hfull : (Int32.ofNat (2 ^ 31 - 1)).toInt = 2 ^ 31 - 1 := by decide
  rw [hfull]
  omega

theorem data_of_relayExcept {players : List Player} {exceptId : Int32} {bs : BitStream}
    {priority : PacketPriority} {reliability : PacketReliability}
    (h : PeerCall.send send ∈ relayExcept players exceptId bs priority reliability) :
    send.data = bs.data := by
  rcases List.mem_map.1 h with ⟨p, _, heq⟩
  cases heq
  rfl

theorem head?_of_broadcastDestroy {players : List Player} {networkId : Int32}
    (h : PeerCall.send send ∈ RelayServer.broadcastDestroy players networkId) :
    send.data.head? = some idDestroyNetPlayer := by
  rw [data_of_relayExcept h]
  rfl

theorem head?_of_sendRoster {players : List Player} {receiver : Player}
    (h : PeerCall.send send ∈ sendRoster players receiver) :
    send.data.head? = some idCreateNetPlayers := by
  rw [sendRoster_eq] at h
  split at h
  · cases h
  · cases List.mem_singleton.1 h
    rfl

/-- What a handler of motion sends, it sends for a spawned player. -/
theorem sent_handleMotion {motion : Motion} {packet : Packet} {minSize : Nat}
    {store : Vec3 → Vec3 → Player → Player}
    (h : PeerCall.send send ∈ (s.handleMotion minSize motion.messageId store packet).2) :
    minSize ≤ packet.length ∧ ∃ self, findByAddress s.players packet.systemAddress = some self ∧
      self.spawned = true ∧
      send.data = (motion.told self.networkId (readMotion packet).2).bytes := by
  unfold RelayServer.handleMotion at h
  split at h
  · cases h
  · rename_i hlong
    split at h
    · cases h
    · rename_i self hfind
      split at h
      · cases h
      · rename_i hspawned
        refine ⟨Nat.not_lt.1 hlong, self, hfind, by simpa using hspawned, ?_⟩
        rw [data_of_relayExcept h]
        exact Motion.data_motionMessage

/-- Motion that is sent has just been taken. -/
theorem sent_motion {motion : Motion} {packet : Packet} {tickMs handlerMs : Int}
    (hinv : TableInv s) (hkind : packet.kind = motion.kind)
    {store : Vec3 → Vec3 → Player → Player}
    (hdispatch : ∀ s : RelayServer, s.dispatch packet handlerMs =
      s.handleMotion kSizePlayerMovement motion.messageId store packet)
    (haccept : (s.bookkeep packet tickMs).2 = true)
    (h : PeerCall.send send ∈ (s.tickPacket packet tickMs handlerMs).2) :
    Sent s send (.packet packet tickMs handlerMs) := by
  have hpermitted := (isolates_tickPacket hinv packet tickMs handlerMs).calls _ h
  simp only [RelayServer.tickPacket, haccept, if_true, hdispatch] at h
  rcases sent_handleMotion h with ⟨hlong, booked, hbooked, hspawned, hdata⟩
  rcases exists_of_find_bookkeep hbooked with ⟨self, hfind, rfl⟩
  rw [bookkeep_of_find hfind] at haccept
  have hwas : self.spawned = true :=
    (congrArg Lobby.Member.present (account_member self tickMs)).symm.trans hspawned
  rw [account_networkId] at hdata
  have hhead : send.data.head? = some motion.messageId := by rw [hdata, Motion.head?_told]
  refine .motion ⟨hkind, hlong, ⟨self, ⟨hfind, ?_, Or.inr hwas⟩, rfl⟩, rfl⟩ ?_ hdata
  · exact (account_accepts self tickMs).1 haccept
  · -- The sender itself is permitted an assignment and a roster only.
    generalize hcall : PeerCall.send send = call at hpermitted
    cases hpermitted with
    | relay hq hqspawned hother haddress =>
      cases hcall
      rw [haddress]
      exact hother
    | assign position hself =>
      cases hcall
      cases motion <;> exact absurd (Option.some.inj hhead) (by decide)
    | roster hself =>
      cases hcall
      cases motion <;> exact absurd (Option.some.inj hhead) (by decide)
    | refuse => cases hcall

theorem sent_handleConnectionNotification {packet : Packet} {nowMs : Int} (hinv : TableInv s)
    (h : PeerCall.send send ∈ (s.handleConnectionNotification packet nowMs).2) :
    ∃ networkId position, networkId ≠ 0 ∧
      send.data = (Message.createLocalNetPlayer networkId position).bytes := by
  cases hfind : findByAddress s.players packet.systemAddress with
  | some self =>
    rw [handleConnectionNotification_known hfind] at h
    cases h
  | none =>
    by_cases hfull : Int32.ofNat s.players.length ≥ s.config.maxPlayers
    · rw [handleConnectionNotification_full hfind hfull] at h
      cases List.mem_singleton.1 h
    · rw [handleConnectionNotification_join hfind hfull] at h
      cases List.mem_singleton.1 h
      exact ⟨_, _, allocateNetworkId_ne_zero (length_of_room hfull hinv), rfl⟩

theorem head?_of_handleCreateNetPlayer {packet : Packet}
    (h : PeerCall.send send ∈ (s.handleCreateNetPlayer packet).2) :
    send.data.head? = some idCreateNetPlayer ∨ send.data.head? = some idCreateNetPlayers := by
  unfold RelayServer.handleCreateNetPlayer at h
  split at h
  · cases h
  · split at h
    · cases h
    · rcases List.mem_append.1 h with hrelayed | hroster
      · refine Or.inl ?_
        rw [data_of_relayExcept hrelayed]
        rfl
      · exact Or.inr (head?_of_sendRoster hroster)

theorem head?_of_handleDrop {packet : Packet}
    (h : PeerCall.send send ∈ (s.handleDrop packet).2) :
    send.data.head? = some idDestroyNetPlayer := by
  unfold RelayServer.handleDrop at h
  split at h
  · cases h
  · simp only at h
    split at h
    · exact head?_of_broadcastDestroy h
    · cases h

theorem sent_step (hinv : ServerInv config s)
    (h : PeerCall.send send ∈ (step s event).2) : Sent s send event := by
  unfold step at h
  split at h
  · cases h
  · cases event with
    | packet packet tickMs handlerMs =>
      simp only at h
      have hbooked : (s.bookkeep packet tickMs).2 = true := by
        by_contra hrefused
        simp [RelayServer.tickPacket, hrefused] at h
      have hdispatched : PeerCall.send send ∈
          ((s.bookkeep packet tickMs).1.dispatch packet handlerMs).2 := by
        simpa [RelayServer.tickPacket, hbooked] using h
      have htable := (keepsTable_bookkeep s packet tickMs).inv hinv.table
      cases hkind : packet.kind with
      | playerMovement =>
        have hdispatch : ∀ s : RelayServer, s.dispatch packet handlerMs =
            s.handleMotion kSizePlayerMovement (Motion.messageId .movement)
              (fun position _ p => { p with position := position }) packet := by
          intro s
          simp only [RelayServer.dispatch, hkind]
          rfl
        exact @sent_motion _ _ .movement _ _ _ hinv.table hkind _ hdispatch hbooked h
      | playerRotation =>
        have hdispatch : ∀ s : RelayServer, s.dispatch packet handlerMs =
            s.handleMotion kSizePlayerMovement (Motion.messageId .rotation)
              (fun up forward p => { p with up := up, forward := forward }) packet := by
          intro s
          simp only [RelayServer.dispatch, hkind]
          rfl
        exact @sent_motion _ _ .rotation _ _ _ hinv.table hkind _ hdispatch hbooked h
      | connectionNotification =>
        simp only [RelayServer.dispatch, hkind] at hdispatched
        rcases sent_handleConnectionNotification htable hdispatched with
          ⟨networkId, position, hid, hdata⟩
        exact .assigned networkId position hid hdata
      | createNetPlayer =>
        simp only [RelayServer.dispatch, hkind] at hdispatched
        rcases head?_of_handleCreateNetPlayer hdispatched with hhead | hhead
        · exact .players hhead (by decide)
        · exact .players hhead (by decide)
      | disconnectionNotification | connectionLost =>
        simp only [RelayServer.dispatch, hkind] at hdispatched
        exact .players (head?_of_handleDrop hdispatched) (by decide)
      | _ =>
        simp only [RelayServer.dispatch, hkind] at hdispatched
        cases hdispatched
    | tickEnd nowMs persistMs writable => cases h
    | stop writable =>
      rcases List.mem_append.1 h with hfarewell | hshutdown
      · rcases List.mem_flatMap.1 hfarewell with ⟨p, _, hdestroy⟩
        exact .players (head?_of_broadcastDestroy hdestroy) (by decide)
      · cases List.mem_singleton.1 hshutdown

end Steps

end Server

/-! ## Following motion back -/

namespace World

open Relation Server Crossover.Mod Past

variable {σ : Type}

/-- The world of a server that has just been started. -/
def begun (config : Config) (nowMs : Int) (restored : Option Vec3) : World σ where
  server := Server.start config nowMs restored

/-- The world once the server has handled an event. -/
def handled (w : World σ) (event : Event) : World σ :=
  { w with
    server := (Server.step w.server event).1
    calls := w.calls ++ (Server.step w.server event).2
    inFlight := fun a => w.inFlight a ++ reliableOrderedTo a (Server.step w.server event).2 }

/-- In this step the server takes motion that has come from `b`, of the player with an id. -/
def Relays (motion : Motion) (b : SystemAddress) (networkId : Int32) (seen : Vec3 × Vec3)
    (v v' : World σ) : Prop :=
  ∃ packet tickMs handlerMs, packet.systemAddress = b ∧
    Takes motion v.server packet tickMs networkId seen ∧
    v' = v.handled (.packet packet tickMs handlerMs)

/-- In this step a hook of the client at `b` reads this off a creature. -/
def Watches (E : SystemAddress → Engine σ) (motion : Motion) (b : SystemAddress)
    (seen : Vec3 × Vec3) (v v' : World σ) : Prop :=
  ∃ s s' networkId, v.clients b = some s ∧ v'.clients b = some s' ∧
    s.step (E b) motion.resolve = .ok s' ∧ Session.Observes motion (E b) s networkId seen

/-- What every reachable world keeps of its messages. -/
structure Wired (config : Config) (w : World σ) : Prop where
  server : ServerInv config w.server
  inFlight : ∀ a, ∀ data ∈ w.inFlight a, ∃ send, PeerCall.send send ∈ w.calls ∧
    send.address = a ∧ send.data = data
  sent : ∀ send, PeerCall.send send ∈ w.calls → ∃ s event, Sent s send event

section Links

variable {E : SystemAddress → Engine σ} {isClient : SystemAddress → Prop} {config : Config}
  {nowMs : Int} {restored : Option Vec3} {w v v' : World σ} {a b : SystemAddress}
  {motion : Motion} {networkId : Int32} {seen : Vec3 × Vec3}

theorem reflTransGen_of_reachable (h : Reachable E isClient config nowMs restored w) :
    ReflTransGen (Step E isClient) (begun config nowMs restored) w := by
  induction h with
  | start => exact .refl
  | step _ hstep ih => exact ih.tail hstep

theorem Wired.begun (config : Config) (nowMs : Int) (restored : Option Vec3) :
    Wired config (World.begun config nowMs restored : World σ) where
  server := serverInv_run config nowMs restored []
  inFlight := by
    intro a data hdata
    cases hdata
  sent := by
    intro send hsend
    cases hsend

theorem Wired.step (h : Wired config v) (hstep : Step E isClient v v') : Wired config v' := by
  cases hstep with
  | @server event _ =>
    refine ⟨h.server.step event, ?_, ?_⟩
    · intro a data hdata
      rcases List.mem_append.1 hdata with hold | hnew
      · rcases h.inFlight a data hold with ⟨send, hsend, hrest⟩
        exact ⟨send, List.mem_append_left _ hsend, hrest⟩
      · rcases mem_reliableOrderedTo hnew with ⟨send, hsend, hrest⟩
        exact ⟨send, List.mem_append_right _ hsend, hrest⟩
    · intro send hsend
      rcases List.mem_append.1 hsend with hold | hnew
      · exact h.sent send hold
      · exact ⟨v.server, event, sent_step h.server hnew⟩
  | connect => exact ⟨h.server, h.inFlight, h.sent⟩
  | @client b s s' event rest hs harrives hok =>
    refine ⟨h.server, ?_, h.sent⟩
    intro a data hdata
    refine h.inFlight a data ?_
    by_cases ha : a = b
    · subst ha
      simp only [Function.update_self] at hdata
      exact rest_subset harrives hdata
    · simpa only [Function.update_of_ne ha] using hdata

theorem wired (h : ReflTransGen (Step E isClient) (begun config nowMs restored) w) :
    Wired config w := by
  induction h with
  | refl => exact Wired.begun config nowMs restored
  | tail _ hstep ih => exact ih.step hstep

/-- A packet of the programs' own that arrives at a client has been sent to it. -/
theorem Wired.sent_of_arrives (h : Wired config v) {packet : Packet} {rounds : Nat}
    {rest : List (List UInt8)} (harrives : v.Arrives a (.packet packet rounds) rest)
    (hown : ¬ Transport packet) :
    ∃ send, PeerCall.send send ∈ v.calls ∧ send.address = a ∧ send.data = packet.data := by
  cases harrives with
  | ordered hflight => exact h.inFlight a packet.data (by simp [hflight])
  | unordered hsend haddress _ hdata => exact ⟨_, hsend, haddress, hdata⟩
  | transport htransport => exact absurd htransport hown
  | own hother => exact absurd rfl (hother packet rounds)

theorem not_transport_motion {packet : Packet} (hkind : packet.kind = motion.kind) :
    ¬ Transport packet := by
  intro htransport
  apply htransport
  rw [hkind]
  cases motion <;> simp [Motion.kind]

/-- The kind of a packet that begins like a message. -/
theorem kind_of_head {packet : Packet} {id : UInt8} (h : packet.data.head? = some id) :
    packet.kind = MessageKind.ofByte id := by
  rw [packet.data_eq_cons] at h
  rw [Packet.kind, Option.some.inj h]

/-- A client has just been told, or it has known before. -/
theorem heard_of_appears (hwired : Wired config v) (hstep : Step E isClient v v')
    (hseen : seen ≠ ({}, {}))
    (hnot : ¬ ∃ s, v.clients a = some s ∧ ∃ netPlayer ∈ s.netPlayers,
      netPlayer.networkId = networkId ∧ motion.vectors netPlayer = seen)
    (hshows : ∃ s, v'.clients a = some s ∧ ∃ netPlayer ∈ s.netPlayers,
      netPlayer.networkId = networkId ∧ motion.vectors netPlayer = seen) :
    ∃ send packet, PeerCall.send send ∈ v.calls ∧ send.address = a ∧
      send.data = packet.data ∧ packet.kind = motion.kind ∧
      Session.readMotion (Session.payload packet) = (networkId, seen) := by
  rcases hshows with ⟨t, ht, netPlayer, hmem, rfl, rfl⟩
  cases hstep with
  | server => exact absurd ⟨t, ht, netPlayer, hmem, rfl, rfl⟩ hnot
  | @connect b process ip port startup connected _ _ =>
    rcases client_cases ht with ⟨rfl, rfl⟩ | hold
    · rw [(Session.calls_opened _ _ _ _ _ _).2.1] at hmem
      cases hmem
    · exact absurd ⟨t, hold, netPlayer, hmem, rfl, rfl⟩ hnot
  | @client b s s' event rest hs harrives hok =>
    rcases client_cases ht with ⟨rfl, rfl⟩ | hold
    · rcases Session.heard_step hok hmem hseen with
        ⟨before, hbefore, hid, hsame⟩ | ⟨packet, rounds, rfl, hkind, hfields⟩
      · exact absurd ⟨s, hs, before, hbefore, hid, hsame⟩ hnot
      · rcases hwired.sent_of_arrives harrives (not_transport_motion hkind) with
          ⟨send, hsend, haddress, hdata⟩
        exact ⟨send, packet, hsend, haddress, hdata, hkind, hfields⟩
    · exact absurd ⟨t, hold, netPlayer, hmem, rfl, rfl⟩ hnot

/-- A mod client never thinks that it hosts. -/
theorem isHost_of_appears (hwired : Wired config v) (hstep : Step E isClient v v')
    (hnot : ¬ ∃ s, v.clients a = some s ∧ s.isHost = true) :
    ¬ ∃ s, v'.clients a = some s ∧ s.isHost = true := by
  rintro ⟨t, ht, hhost⟩
  cases hstep with
  | server => exact hnot ⟨t, ht, hhost⟩
  | @connect b process ip port startup connected _ _ =>
    rcases client_cases ht with ⟨rfl, rfl⟩ | hold
    · simp [Session.isHost, (Session.calls_opened _ _ _ _ _ _).2.2] at hhost
    · exact hnot ⟨t, hold, hhost⟩
  | @client b s s' event rest hs harrives hok =>
    rcases client_cases ht with ⟨rfl, rfl⟩ | hold
    · rcases Session.isHost_step hok hhost with hbefore | ⟨packet, rounds, rfl, hkind, hzero⟩
      · exact hnot ⟨s, hs, hbefore⟩
      · have hown : ¬ Transport packet := fun htransport => htransport (by simp [hkind])
        rcases hwired.sent_of_arrives harrives hown with ⟨send, hsend, _, hdata⟩
        -- The server gives out no id 0, and nothing else it sends is an assignment.
        rcases hwired.sent send hsend with ⟨s₁, event, hsent⟩
        cases hsent with
        | assigned networkId position hne hbytes =>
          have hbody : (Session.payload packet).Remaining
              (encode networkId ++ (encode position ++ [])) :=
            Session.remaining_payload (by simpa [Message.bytes] using hdata.symm.trans hbytes)
          have hread := Session.readCreateLocalNetPlayer_of_remaining hbody
          exact hne ((congrArg Prod.fst hread).symm.trans hzero)
        | @motion other _ _ _ _ _ _ _ hbytes =>
          have hmotion := Packet.kind_of_bytes (hdata.symm.trans hbytes)
          rw [hkind, Motion.kind_told] at hmotion
          cases other <;> cases hmotion
        | players hhead hid =>
          have hplayers := kind_of_head (hdata ▸ hhead)
          rw [hkind] at hplayers
          simp only [List.mem_cons, List.not_mem_nil, or_false] at hid
          rcases hid with rfl | rfl | rfl <;> cases hplayers
    · exact hnot ⟨t, hold, hhost⟩

theorem not_isHost (h : ReflTransGen (Step E isClient) (begun config nowMs restored) w) :
    ∀ s, w.clients a = some s → s.isHost = false := by
  have hnever : ¬ ∃ s, w.clients a = some s ∧ s.isHost = true := by
    induction h with
    | refl =>
      rintro ⟨s, hs, _⟩
      cases hs
    | tail hbefore hstep ih => exact isHost_of_appears (wired hbefore) hstep ih
  intro s hs
  by_contra hhost
  exact hnever ⟨s, hs, by simpa using hhost⟩

/-- What a client has said of itself it has just seen, or it has said it before. -/
theorem watched_of_appears (hhost : ∀ s, v.clients b = some s → s.isHost = false)
    (hstep : Step E isClient v v') {send : Send}
    (hmotion : send.data.head? = some motion.messageId)
    (hnot : ¬ ∃ s, v.clients b = some s ∧ PeerCall.send send ∈ s.calls)
    (hsaid : ∃ s, v'.clients b = some s ∧ PeerCall.send send ∈ s.calls) :
    ∃ networkId seen, Watches E motion b seen v v' ∧
      send.data = (motion.told networkId seen).bytes := by
  rcases hsaid with ⟨t, ht, hsend⟩
  cases hstep with
  | server => exact absurd ⟨t, ht, hsend⟩ hnot
  | @connect c process ip port startup connected _ _ =>
    rcases client_cases ht with ⟨rfl, rfl⟩ | hold
    · rw [(Session.calls_opened _ _ _ _ _ _).1] at hsend
      cases hsend
    · exact absurd ⟨t, hold, hsend⟩ hnot
  | @client c s s' event rest hs harrives hok =>
    rcases client_cases ht with ⟨rfl, rfl⟩ | hold
    · have hnew : PeerCall.send send ∉ s.calls := fun hold => hnot ⟨s, hs, hold⟩
      rcases Session.said_step hok hnew hsend hmotion with
        ⟨rfl, networkId, seen, hobserves, hdata⟩ | ⟨hhosts, _⟩
      · refine ⟨networkId, seen, ⟨s, t, networkId, hs, ht, hok, hobserves⟩, ?_⟩
        rw [hdata, Motion.data_motionMessage]
      · rw [hhost s hs] at hhosts
        cases hhosts
    · exact absurd ⟨t, hold, hsend⟩ hnot

/-- What the server takes from a mod client, a hook there has seen. -/
theorem watched_of_takes (h : ReflTransGen (Step E isClient) (begun config nowMs restored) v)
    {packet : Packet} {tickMs : Int} (htakes : Takes motion v.server packet tickMs networkId seen)
    (hfrom : v.FromClient packet) :
    Once (Step E isClient) (begun config nowMs restored)
      (Watches E motion packet.systemAddress seen) v := by
  rcases hfrom with htransport | ⟨s, hs, send, hsend, hdata⟩
  · exact absurd htransport (not_transport_motion htakes.kind)
  · have hmotion : send.data.head? = some motion.messageId := by
      have hbyte : motion.kind.byte = some packet.id :=
        MessageKind.byte_of_ofByte htakes.kind (by cases motion <;> decide)
      rw [hdata, packet.data_eq_cons, List.head?_cons, ← hbyte]
      cases motion <;> rfl
    have happeared := Once.of_appears
      (S := fun v : World σ => ∃ s, v.clients packet.systemAddress = some s ∧
        PeerCall.send send ∈ s.calls) h
      (by rintro ⟨s, hs, _⟩; cases hs) ⟨s, hs, hsend⟩
    refine happeared.imp ?_
    rintro u u' hbefore hstep ⟨hnot, hsaid⟩
    rcases watched_of_appears (fun s => not_isHost hbefore s) hstep hmotion hnot hsaid with
      ⟨claimed, watched, hwatches, hbytes⟩
    -- The server has read the vectors that the hook has written.
    have hread := Server.readMotion_of_bytes motion.messageId
      (hdata.symm.trans (hbytes.trans Motion.bytes_told))
    have hsame : watched = seen := (congrArg Prod.snd hread).symm.trans htakes.fields
    exact hsame ▸ hwatches

/-- Motion that the server has sent it has just taken from somebody else, or it has sent it
before. -/
theorem relayed_of_appears (hwired : Wired config v) (hstep : Step E isClient v v') {send : Send}
    {packet : Packet} (hdata : send.data = packet.data) (hkind : packet.kind = motion.kind)
    (hread : Session.readMotion (Session.payload packet) = (networkId, seen))
    (hnot : PeerCall.send send ∉ v.calls) (hsent : PeerCall.send send ∈ v'.calls) :
    ∃ b, b ≠ send.address ∧ Relays motion b networkId seen v v' ∧
      ∃ taken tickMs, taken.systemAddress = b ∧
        Takes motion v.server taken tickMs networkId seen ∧ (isClient b → v.FromClient taken) := by
  cases hstep with
  | connect => exact absurd hsent hnot
  | client => exact absurd hsent hnot
  | @server event hhandles =>
    have hnew := (List.mem_append.1 hsent).resolve_left hnot
    generalize hwhat : event = what at hnew
    cases sent_step hwired.server hnew with
    | assigned other position _ hbytes =>
      have hother := Packet.kind_of_bytes (hdata.symm.trans hbytes)
      rw [hkind] at hother
      cases motion <;> cases hother
    | players hhead hid =>
      have hother := kind_of_head (hdata ▸ hhead)
      rw [hkind] at hother
      simp only [List.mem_cons, List.not_mem_nil, or_false] at hid
      rcases hid with rfl | rfl | rfl <;> cases motion <;> cases hother
    | @motion other taken tickMs handlerMs k vectors htakes haddress hbytes =>
      subst hwhat
      have hsame := Packet.kind_of_bytes (hdata.symm.trans hbytes)
      rw [hkind, Motion.kind_told] at hsame
      obtain rfl := Motion.kind_injective hsame
      have hfields := (Motion.readMotion_told (hdata.symm.trans hbytes)).symm.trans hread
      cases hfields
      exact ⟨taken.systemAddress, Ne.symm haddress,
        ⟨taken, tickMs, handlerMs, rfl, htakes, rfl⟩,
        taken, tickMs, rfl, htakes, hhandles⟩

end Links

/-- What a client shows of another player, beyond what it was created with, the server has taken
from an address other than the client's whose player held the id, and if a mod client is there, a
hook of its own has read it off a creature before. -/
theorem sightings_genuine (E : SystemAddress → Engine σ) (isClient : SystemAddress → Prop)
    (config : Config) (nowMs : Int) (restored : Option Vec3) (motion : Motion) (w : World σ)
    (h : Reachable E isClient config nowMs restored w) (a : SystemAddress) (s : Session σ)
    (hs : w.clients a = some s) (netPlayer : NetPlayer) (hmem : netPlayer ∈ s.netPlayers) :
    motion.vectors netPlayer = ({}, {}) ∨ ∃ b, b ≠ a ∧
      Once (Step E isClient) (begun config nowMs restored) (fun v v' =>
        Relays motion b netPlayer.networkId (motion.vectors netPlayer) v v' ∧
          (isClient b → Once (Step E isClient) (begun config nowMs restored)
            (Watches E motion b (motion.vectors netPlayer)) v)) w := by
  by_cases hseen : motion.vectors netPlayer = ({}, {})
  · exact Or.inl hseen
  · right
    have hreach := reflTransGen_of_reachable h
    -- The vectors have come to the client in a message.
    have hheard := Once.of_appears
      (S := fun v : World σ => ∃ s, v.clients a = some s ∧ ∃ other ∈ s.netPlayers,
        other.networkId = netPlayer.networkId ∧ motion.vectors other = motion.vectors netPlayer)
      hreach (by rintro ⟨s, hs, _⟩; cases hs) ⟨s, hs, netPlayer, hmem, rfl, rfl⟩
    rcases hheard with ⟨v, v', hbefore, hstep, ⟨hnot, hshows⟩, hafter⟩
    rcases heard_of_appears (wired hbefore) hstep hseen hnot hshows with
      ⟨send, packet, hsend, rfl, hdata, hkind, hread⟩
    -- The message has been sent in a step before that one.
    have hsent := Once.of_appears (S := fun v : World σ => PeerCall.send send ∈ v.calls) hbefore
      (by intro hnone; cases hnone) hsend
    rcases hsent with ⟨u, u', hearlier, hrelay, ⟨hfirst, hthen⟩, hlater⟩
    rcases relayed_of_appears (wired hearlier) hrelay hdata hkind hread hfirst hthen with
      ⟨b, hne, hrelays, taken, tickMs, rfl, htakes, hfrom⟩
    refine ⟨taken.systemAddress, hne, u, u', hearlier, hrelay, ⟨hrelays, ?_⟩,
      (hlater.tail hstep).trans hafter⟩
    intro hclient
    exact watched_of_takes hearlier htakes (hfrom hclient)

/-! ### A stranger that moves -/

def strangerAddress : SystemAddress :=
  { ip := 0x0200007F, port := 50002 }

/-- A packet from an address where no mod client is. -/
def strangerPacket (messageId : UInt8) (body : List UInt8) : Packet where
  systemAddress := strangerAddress
  guid := 1
  data := messageId :: body
  nonempty := List.cons_ne_nil _ _

/-- The stranger's position, one unit along the first axis. -/
def strangerPosition : List UInt8 :=
  List.replicate 8 0 ++ [0x3F, 0x80, 0, 0]

def heroAssigned : Session Engine.Table :=
  (heroSession.handleConnectionRequestAccepted (heroPacket 16 [])).handleCreateLocalNetPlayer
    heroEngine (heroPacket 135 ([0, 0, 0, 1] ++ List.replicate 12 0))

def heroAnnounced : Session Engine.Table :=
  heroAssigned.updateRegionLoad heroEngine

/-- The hero's game once the stranger has been created there. -/
def heroAccompanied : Session Engine.Table :=
  { heroAnnounced with
    engine := [(1, 7), (0, 2000)]
    resolveMovementAccelerationCallbacks := heroAnnounced.resolveMovementAccelerationCallbacks ++
      [(movementKey 2, .apply 2 1)]
    resolveFacingDirectionCallbacks := heroAnnounced.resolveFacingDirectionCallbacks ++
      [(facingKey 2, .apply 2 1)]
    netPlayers := [{ networkId := 2, localId := 1 }] }

/-- The hero's game once the stranger has moved. -/
def heroInformed : Session Engine.Table :=
  heroAccompanied.handleNetPlayerMovement
    (heroPacket 139 ([0, 0, 0, 2] ++ strangerPosition ++ List.replicate 12 0))

/-- The client at the hero's address handles an event. -/
theorem Reachable.hero {w : World Engine.Table} {isClient : SystemAddress → Prop}
    {s s' : Session Engine.Table} {event : SessionEvent Engine.Table} {rest : List (List UInt8)}
    (h : Reachable (fun _ => heroEngine) isClient {} 0 none w)
    (hs : w.clients heroAddress = some s) (harrives : w.Arrives heroAddress event rest)
    (hok : s.step heroEngine event = .ok s') :
    Reachable (fun _ => heroEngine) isClient {} 0 none
      { w with
        clients := Function.update w.clients heroAddress (some s')
        inFlight := Function.update w.inFlight heroAddress rest } :=
  h.step (.client hs harrives hok)

/-- The stranger joins, spawns and moves, and the hero's game shows it where it says it is. -/
theorem sightings_genuine_stranger :
    let motion := Motion.movement
    let netPlayer : NetPlayer := { networkId := 2, localId := 1, position := { x := 0x3F800000 } }
    let E : SystemAddress → Engine Engine.Table := fun _ => heroEngine
    let isClient : SystemAddress → Prop := fun a => a = heroAddress
    ∃ w, ∃ s, w.clients heroAddress = some s ∧ netPlayer ∈ s.netPlayers ∧
      (motion.vectors netPlayer = ({}, {}) ∨ ∃ b, b ≠ heroAddress ∧
        Once (Step E isClient) (begun {} 0 none) (fun v v' =>
          Relays motion b 2 (motion.vectors netPlayer) v v' ∧
            (isClient b → Once (Step E isClient) (begun {} 0 none)
              (Watches E motion b (motion.vectors netPlayer)) v)) w) := by
  intro motion netPlayer E isClient
  have hstart : Reachable E isClient {} 0 none { server := Server.start {} 0 none } := .start
  have hstranger : ∀ (messageId : UInt8) (body : List UInt8),
      isClient (strangerPacket messageId body).systemAddress → False := by
    intro messageId body hclient
    exact absurd (show strangerAddress = heroAddress from hclient) (by decide)
  have hconnected := hstart.step (@Step.connect _ E isClient _ heroAddress
    { engine := [(0, 2000)], boundAddress := heroAddress } "127.0.0.1" 60000 true true rfl rfl)
  have haccepted := @Reachable.hero _ isClient heroSession
    (heroSession.handleConnectionRequestAccepted (heroPacket 16 []))
    (.packet (heroPacket 16 []) 0) _ hconnected rfl (.transport (by decide)) rfl
  have hjoined := haccepted.step (@Step.server _ E isClient _ (.packet (heroPacket 134 []) 0 0)
    (fun _ => Or.inr ⟨_, rfl, _, List.mem_singleton_self _, rfl⟩))
  have hassigned := @Reachable.hero _ isClient _ heroAssigned
    (.packet (heroPacket 135 ([0, 0, 0, 1] ++ List.replicate 12 0)) 0) [] hjoined rfl
    (.ordered (by decide +kernel)) rfl
  have hannounced := @Reachable.hero _ isClient _ heroAnnounced .updateRegionLoad _ hassigned rfl
    (.own (by intro packet rounds heq; cases heq)) rfl
  have hspawned := hannounced.step (@Step.server _ E isClient _
    (.packet (heroPacket 136 ([0, 0, 0, 1] ++ [0, 0, 7, 0xD0] ++ List.replicate 12 0)) 0 0)
    (fun _ => Or.inr ⟨_, rfl, _, List.mem_of_getLast? rfl, rfl⟩))
  have harrived := hspawned.step (@Step.server _ E isClient _ (.packet (strangerPacket 134 []) 0 0)
    (fun hclient => (hstranger _ _ hclient).elim))
  have hcreated := harrived.step (@Step.server _ E isClient _
    (.packet (strangerPacket 136 ([0, 0, 0, 9] ++ [0, 0, 0, 7] ++ strangerPosition)) 0 0)
    (fun hclient => (hstranger _ _ hclient).elim))
  have haccompanied := @Reachable.hero _ isClient _ heroAccompanied
    (.packet (heroPacket 136 ([0, 0, 0, 2] ++ [0, 0, 0, 7] ++ strangerPosition)) 0) [] hcreated rfl
    (.ordered (by decide +kernel)) rfl
  have hmoved := haccompanied.step (@Step.server _ E isClient _
    (.packet (strangerPacket 139 ([0, 0, 0, 9] ++ strangerPosition ++ List.replicate 12 0)) 0 0)
    (fun hclient => (hstranger _ _ hclient).elim))
  let motionData := [0, 0, 0, 2] ++ strangerPosition ++ List.replicate 12 0
  let motionSend : Send := { data := 139 :: motionData, priority := .high,
                             reliability := .unreliableSequenced, address := heroAddress }
  have hinformed := @Reachable.hero _ isClient _ heroInformed
    (.packet (heroPacket 139 motionData) 0) _ hmoved rfl
    (@Arrives.unordered _ _ _ _ _ motionSend (by decide +kernel) rfl (by decide) rfl) rfl
  exact ⟨_, heroInformed, rfl, by decide,
    sightings_genuine E isClient {} 0 none motion _ hinformed heroAddress heroInformed rfl netPlayer
      (by decide)⟩

end World
end Crossover
