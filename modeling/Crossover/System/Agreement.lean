import Crossover.Lib.Addressee
import Crossover.System.HostRefinement
import Crossover.System.Sightings

/-!
# Agreement — what a client shows once everything has arrived

In a world of the server and its clients a client is always some messages behind.  As long as its
session is not disturbed it has done with the messages that have arrived what a listener does, so
it shows nobody twice, it can always handle the rest, and when nothing is on its way to it, it shows
the players the server has.
-/

namespace Crossover

open Wire

/-! ## A session that goes on -/

namespace Mod

variable {σ : Type}

/-- Moving and turning creatures makes and destroys none. -/
structure Engine.Displays (E : Engine σ) (Holds : σ → Int → Int32 → Prop) : Prop where
  accelerated : ∀ e creature acceleration i d, Holds e i d →
    Holds (E.setMovementAcceleration e creature acceleration) i d
  moved : ∀ e creature position i d, Holds e i d → Holds (E.setPosition e creature position) i d
  turned : ∀ e creature up forward i d, Holds e i d →
    Holds (E.setRHSet e creature up forward) i d

theorem Engine.table_displays (systemAddress : String → UInt16 → SystemAddress) :
    (Engine.table systemAddress).Displays Engine.Table.Holds :=
  ⟨fun _ _ _ _ _ h => h, fun _ _ _ _ _ h => h, fun _ _ _ _ _ _ h => h⟩

namespace Session

/-- The event is no end of the session, and the game loses nobody in it. -/
def Steady (Holds : σ → Int → Int32 → Prop) (s : Session σ) : SessionEvent σ → Prop
  | .packet packet _ =>
      packet.kind ∉ [MessageKind.disconnectionNotification, .connectionLost,
        .connectionAttemptFailed]
  | .game engine => ∀ i d, Holds s.engine i d → Holds engine i d
  | .disconnect _ => False
  | _ => True

/-- The same players with their creatures, whatever else has changed. -/
structure Kept (Holds : σ → Int → Int32 → Prop) (s s' : Session σ) : Prop where
  active : s'.network.active = s.network.active
  localNetPlayer : s'.localNetPlayer = s.localNetPlayer
  ids : s'.netPlayers.map NetPlayer.ids = s.netPlayers.map NetPlayer.ids
  held : ∀ i d, Holds s.engine i d → Holds s'.engine i d

section Steadiness

variable {E : Engine σ} {Holds : σ → Int → Int32 → Prop} {s s' s'' : Session σ}

theorem Kept.refl (s : Session σ) : Kept Holds s s :=
  ⟨rfl, rfl, rfl, fun _ _ h => h⟩

theorem Kept.trans (h : Kept Holds s s') (h' : Kept Holds s' s'') : Kept Holds s s'' :=
  ⟨h'.active.trans h.active, h'.localNetPlayer.trans h.localNetPlayer, h'.ids.trans h.ids,
    fun i d hheld => h'.held i d (h.held i d hheld)⟩

theorem SameManager.kept (h : SameManager s s')
    (hheld : ∀ i d, Holds s.engine i d → Holds s'.engine i d) : Kept Holds s s' :=
  ⟨by rw [h.network], h.localNetPlayer, by rw [h.netPlayers], hheld⟩

theorem Quiet.kept (h : Quiet s s') : Kept Holds s s' := by
  refine h.toSameManager.kept ?_
  rw [h.engine]
  exact fun _ _ hheld => hheld

theorem Kept.ready (h : Kept Holds s s') (hready : s.Ready Holds) : s'.Ready Holds where
  active := h.active.trans hready.active
  localNetPlayer := h.localNetPlayer.trans hready.localNetPlayer
  netPlayers := by
    have hids := h.ids
    rw [hready.netPlayers] at hids
    exact List.map_eq_nil_iff.1 hids
  hero := by
    rcases hready.hero with ⟨d, hheld⟩
    exact ⟨d, h.held 0 d hheld⟩

theorem Kept.follows (h : Kept Holds s s') {l : LobbyListener} (hfollows : Follows Holds s l) :
    Follows Holds s' l := by
  have hgame : Follows Holds { s with engine := s'.engine } l := by
    refine ⟨?_, ?_, hfollows.localIds⟩
    · rcases hfollows.localNetPlayer with ⟨p, d, hp, hown, hheld⟩
      exact ⟨p, d, hp, hown, h.held _ _ hheld⟩
    · exact hfollows.netPlayers.imp fun _ _ hentry => ⟨hentry.1, h.held _ _ hentry.2⟩
  -- But for the game this is what motion does to a session.
  have hmotion : Follows.Keeps Holds { s with engine := s'.engine } l
      (.ok { s' with network := s.network }) :=
    hgame.motion ⟨h.localNetPlayer, rfl, rfl, h.ids⟩
  rcases hmotion with ⟨t, ht, hsame, _⟩
  cases ht
  exact hsame.congr rfl rfl rfl

theorem kept_runMovementCallback (hE : E.Displays Holds) {callback : MotionCallback}
    (h : s.runMovementCallback E callback = .ok s') : Kept Holds s s' := by
  cases callback with
  | broadcast networkId creature => exact (quiet_sendMotion h).kept
  | apply networkId creature =>
    simp only [runMovementCallback] at h
    split at h
    · cases h
      exact Kept.refl s
    · split at h
      · cases h
        refine SameManager.kept ⟨rfl, rfl, rfl⟩ ?_
        exact fun i d hheld => hE.moved _ _ _ i d (hE.accelerated _ _ _ i d hheld)
      · cases h
        exact SameManager.kept ⟨rfl, rfl, rfl⟩ (hE.accelerated _ _ _)

theorem kept_runFacingCallback (hE : E.Displays Holds) {callback : MotionCallback}
    (h : s.runFacingCallback E callback = .ok s') : Kept Holds s s' := by
  cases callback with
  | broadcast networkId creature => exact (quiet_sendMotion h).kept
  | apply networkId creature =>
    simp only [runFacingCallback] at h
    split at h
    · cases h
      exact Kept.refl s
    · cases h
      exact SameManager.kept ⟨rfl, rfl, rfl⟩ (hE.turned _ _ _ _)

/-- What tells nothing of the other players, and does not end the session, keeps them. -/
theorem kept_step (hE : E.Displays Holds) {event : SessionEvent σ}
    (h : s.step E event = .ok s') (hsteady : s.Steady Holds event)
    (htells : ∀ packet rounds, event = .packet packet rounds → World.Transport packet ∨
      ∃ motion : Motion, packet.kind = motion.kind) : Kept Holds s s' := by
  cases event with
  | packet packet rounds =>
    simp only [step, update] at h
    split at h
    · cases h
      exact Kept.refl _
    · rcases htells packet rounds rfl with htransport | ⟨motion, hkind⟩
      · simp only [Steady, List.mem_cons, List.not_mem_nil, or_false, not_or] at hsteady
        simp only [World.Transport, List.mem_cons, List.not_mem_nil, or_false, not_or]
          at htransport
        rcases hsteady with ⟨hdisconnection, hlost, hfailed⟩
        rcases htransport with ⟨hnotification, hassign, hcreate, hroster, hdestroy, hmove, hturn⟩
        cases hkind : packet.kind with
        | connectionRequestAccepted =>
          rw [hkind] at h
          cases h
          exact (quiet_peerSend _ _ _ _ _).kept
        | connectionNotification => exact absurd hkind hnotification
        | createLocalNetPlayer => exact absurd hkind hassign
        | createNetPlayer => exact absurd hkind hcreate
        | createNetPlayers => exact absurd hkind hroster
        | destroyNetPlayer => exact absurd hkind hdestroy
        | playerMovement => exact absurd hkind hmove
        | playerRotation => exact absurd hkind hturn
        | disconnectionNotification => exact absurd hkind hdisconnection
        | connectionLost => exact absurd hkind hlost
        | connectionAttemptFailed => exact absurd hkind hfailed
        | _ =>
          rw [hkind] at h
          cases h
          exact Kept.refl s
      · cases motion with
        | movement =>
          rw [show packet.kind = .playerMovement from hkind] at h
          cases h
          have hids := receiveNetPlayerMovement_ids s (readMotion (payload packet)).1
            (readMotion (payload packet)).2.1 (readMotion (payload packet)).2.2
          exact ⟨by rw [handleNetPlayerMovement, hids.2.1], hids.1, hids.2.2.2,
            fun i d hheld => by rw [handleNetPlayerMovement, hids.2.2.1]; exact hheld⟩
        | rotation =>
          rw [show packet.kind = .playerRotation from hkind] at h
          cases h
          have hids := receiveNetPlayerRotation_ids s (readMotion (payload packet)).1
            (readMotion (payload packet)).2.1 (readMotion (payload packet)).2.2
          exact ⟨by rw [handleNetPlayerRotation, hids.2.1], hids.1, hids.2.2.2,
            fun i d hheld => by rw [handleNetPlayerRotation, hids.2.2.1]; exact hheld⟩
  | updateRegionLoad =>
    cases h
    exact (quiet_updateRegionLoad E s).kept
  | resolveMovementAcceleration =>
    exact runAll_rel Kept.refl Kept.trans (kept_runMovementCallback hE) h
  | resolveFacingDirection =>
    exact runAll_rel Kept.refl Kept.trans (kept_runFacingCallback hE) h
  | game engine =>
    cases h
    exact SameManager.kept ⟨rfl, rfl, rfl⟩ hsteady
  | disconnect rounds => exact hsteady.elim

end Steadiness

end Session
end Mod

/-! ## The world, step by step -/

namespace World

open Relation Server Crossover.Mod Lobby

variable {σ : Type}

/-- What takes place in a step. -/
inductive Label (σ : Type)
  | server (event : Event)
  | connect (a : SystemAddress) (process : Process σ) (ip : String) (port : UInt16)
      (startup connected : Bool)
  | client (a : SystemAddress) (event : SessionEvent σ)

/-- The step with this label. -/
def Performs (E : SystemAddress → Engine σ) (isClient : SystemAddress → Prop) (w : World σ) :
    Label σ → World σ → Prop
  | .server event, w' => w.Handles isClient event ∧ w' = w.handled event
  | .connect a process ip port startup connected, w' =>
      isClient a ∧ w.clients a = none ∧ w' =
        { w with
          clients := Function.update w.clients a
            (some (Session.opened (E a) process (.connect ip port startup connected))) }
  | .client a event, w' =>
      ∃ s s' rest, w.clients a = some s ∧ w.Arrives a event rest ∧
        s.step (E a) event = .ok s' ∧ w' =
          { w with
            clients := Function.update w.clients a (some s')
            inFlight := Function.update w.inFlight a rest }

theorem step_iff {E : SystemAddress → Engine σ} {isClient : SystemAddress → Prop}
    {w w' : World σ} : Step E isClient w w' ↔ ∃ label, w.Performs E isClient label w' := by
  constructor
  · intro hstep
    cases hstep with
    | @server event hhandles => exact ⟨.server event, hhandles, rfl⟩
    | @connect a process ip port startup connected ha hfresh =>
      exact ⟨.connect a process ip port startup connected, ha, hfresh, rfl⟩
    | @client a s s' event rest hs harrives hok =>
      exact ⟨.client a event, s, s', rest, hs, harrives, hok, rfl⟩
  · rintro ⟨label, hperforms⟩
    cases label with
    | server event =>
      rcases hperforms with ⟨hhandles, rfl⟩
      exact .server hhandles
    | connect a process ip port startup connected =>
      rcases hperforms with ⟨ha, hfresh, rfl⟩
      exact .connect process ip port startup connected ha hfresh
    | client a event =>
      rcases hperforms with ⟨s, s', rest, hs, harrives, hok, rfl⟩
      exact .client hs harrives hok

/-- The server has a player at this address. -/
def Seated (s : RelayServer) (a : SystemAddress) : Prop :=
  ∃ p ∈ s.players, p.address = a

instance (s : RelayServer) (a : SystemAddress) : Decidable (Seated s a) :=
  inferInstanceAs (Decidable (∃ p ∈ s.players, p.address = a))

/-- This disturbs neither the server nor the session at `a`: the server goes on, keeps the
player it has there and is not told of anybody twice, the session starts with a hero, and it goes
on. -/
def Calm (Holds : σ → Int → Int32 → Prop) (a : SystemAddress) (w : World σ) : Label σ → Prop
  | .server event => (∀ writable, event ≠ .stop writable) ∧ ¬ Reannounces w.server event ∧
      (Seated w.server a → Seated (Server.step w.server event).1 a)
  | .connect b process _ _ startup _ => b = a → startup = true ∧ ∃ d, Holds process.engine 0 d
  | .client b event => b = a → ∀ s, w.clients a = some s → s.Steady Holds event

/-- A step that disturbs nobody. -/
def CalmStep (E : SystemAddress → Engine σ) (isClient : SystemAddress → Prop)
    (Holds : σ → Int → Int32 → Prop) (a : SystemAddress) (w w' : World σ) : Prop :=
  ∃ label, w.Performs E isClient label w' ∧ w.Calm Holds a label

/-! ## The client is a listener -/

/-- The session is where a listener is behind these messages. -/
def Heeds (Holds : σ → Int → Int32 → Prop) (s : Session σ) (messages : List Message) : Prop :=
  s.network.active = true ∧
    (messages = [] ∧ s.Ready Holds ∨
      messages ≠ [] ∧ s.Follows Holds (Listener.after (messages.filterMap messageNote)))

/-- What calm steps keep: the lobby's members are informed, and the client has heeded the messages
that have arrived. -/
structure Linked (Holds : σ → Int → Int32 → Prop) (config : Config) (a : SystemAddress)
    (w : World σ) : Prop where
  channel : ChannelInv config w.server w.calls
  peer : w.server.peer = true
  fresh : Fresh (notes w.calls)
  informed : Audience.presentOnly.Informed (members w.server.players) (notes w.calls)
  greeted : Audience.GreetedAt (members w.server.players) (notes w.calls) a
  client : ∃ arrived, reliableOrderedTo a w.calls = arrived ++ w.inFlight a ∧
    (w.clients a = none → arrived = []) ∧
    ∀ s, w.clients a = some s → Heeds Holds s (arrived.filterMap Message.parse)

section Steps

variable {E : SystemAddress → Engine σ} {isClient : SystemAddress → Prop}
  {Holds : σ → Int → Int32 → Prop} {config : Config} {nowMs : Int} {restored : Option Vec3}
  {a : SystemAddress} {w w' : World σ}

/-- A step of the client that does not disturb it. -/
theorem calmStep_client {s s' : Session σ} {event : SessionEvent σ} {rest : List (List UInt8)}
    (hs : w.clients a = some s) (harrives : w.Arrives a event rest)
    (hok : s.step (E a) event = .ok s') (hsteady : s.Steady Holds event) :
    CalmStep E isClient Holds a w
      { w with
        clients := Function.update w.clients a (some s')
        inFlight := Function.update w.inFlight a rest } := by
  refine ⟨.client a event, ⟨s, s', rest, hs, harrives, hok, rfl⟩, ?_⟩
  intro _ t ht
  obtain rfl := Option.some.inj (hs.symm.trans ht)
  exact hsteady

theorem not_reannounces {s : RelayServer} {packet : Packet} {tickMs handlerMs : Int}
    (h : (findByAddress s.players packet.systemAddress).all (fun self => !self.spawned) = true) :
    ¬ Reannounces s (.packet packet tickMs handlerMs) := by
  rintro ⟨_, _, self, hfind, hspawned, _⟩
  simp [hfind, hspawned] at h

/-- Nobody who has yet to spawn announces itself twice. -/
theorem calmStep_packet {packet : Packet} {tickMs handlerMs : Int}
    (hfrom : isClient packet.systemAddress → w.FromClient packet)
    (honce : (findByAddress w.server.players packet.systemAddress).all
      (fun self => !self.spawned) = true)
    (hseated : Seated w.server a →
      Seated (Server.step w.server (.packet packet tickMs handlerMs)).1 a) :
    CalmStep E isClient Holds a w (w.handled (.packet packet tickMs handlerMs)) := by
  refine ⟨.server (.packet packet tickMs handlerMs), ⟨hfrom, rfl⟩, ?_, not_reannounces honce,
    hseated⟩
  intro writable heq
  cases heq

theorem act_ne_close {s : RelayServer} {event : Event}
    (hgoes : ∀ writable, event ≠ .stop writable) : act s event ≠ .close := by
  cases event with
  | packet packet tickMs handlerMs =>
    simp only [act]
    split
    · simp
    · split
      · have hwhy := dispatched (s.bookkeep packet tickMs).1 packet
        generalize dispatchAct (s.bookkeep packet tickMs).1 packet = what at hwhy
        cases hwhy <;> simp
      · simp
  | tickEnd nowMs persistMs writable =>
    simp only [act]
    split <;> simp
  | stop writable => exact absurd rfl (hgoes writable)

theorem seated_iff {s : RelayServer} :
    Seated s a ↔ ∃ m ∈ members s.players, m.addr = a := by
  constructor
  · rintro ⟨p, hp, ha⟩
    exact ⟨p.member, List.mem_map_of_mem hp, ha⟩
  · rintro ⟨m, hm, ha⟩
    rcases List.mem_map.1 hm with ⟨p, hp, rfl⟩
    exact ⟨p, hp, ha⟩

theorem Linked.begun : Linked Holds config a (World.begun config nowMs restored) := by
  refine ⟨channelInv_run config nowMs restored [], rfl, ?_, Audience.Informed.nil,
    Audience.GreetedAt.nil a, [], rfl, fun _ => rfl, ?_⟩
  · intro b
    exact History.every_nil _
  · intro s hs
    cases hs

/-- The server tells its members what they have to know. -/
theorem Linked.server (h : Linked Holds config a w) {event : Event}
    (hcalm : w.Calm Holds a (.server event)) : Linked Holds config a (w.handled event) := by
  rcases hcalm with ⟨hgoes, hreannounces, hseated⟩
  have hinv := h.channel.roster.inv
  have hstep := (stepsLobby_step hinv.table event).step
  have hopen : act w.server event ≠ .close := act_ne_close hgoes
  have hfresh : ¬ Repeats (members w.server.players) (act w.server event) := by
    rwa [← reannounces_iff hinv]
  have hpeer : (Server.step w.server event).1.peer = true := by
    cases event with
    | packet packet tickMs handlerMs =>
      simp only [Server.step, h.peer, Bool.not_true, Bool.false_eq_true, if_false]
      exact (keepsTable_tickPacket w.server packet tickMs handlerMs).peer.trans h.peer
    | tickEnd nowMs persistMs writable =>
      simp only [Server.step, h.peer, Bool.not_true, Bool.false_eq_true, if_false]
      exact (keepsTable_tickEnd w.server nowMs persistMs writable).peer.trans h.peer
    | stop writable => exact absurd rfl (hgoes writable)
  rw [seated_iff, seated_iff] at hseated
  refine ⟨h.channel.step event, hpeer, ?_, ?_, ?_, ?_⟩
  · simp only [handled, notes_append]
    exact (h.channel.roster.agrees.fresh_step hstep).2 ⟨h.fresh, hfresh⟩
  · simp only [handled, notes_append]
    exact h.informed.of_step hstep hfresh hopen
  · simp only [handled, notes_append]
    exact h.greeted.step h.informed.wf hstep hfresh hopen hseated
  · rcases h.client with ⟨arrived, hsplit, hnone, hheeds⟩
    refine ⟨arrived, ?_, hnone, hheeds⟩
    have happend : reliableOrderedTo a (w.calls ++ (Server.step w.server event).2) =
        reliableOrderedTo a w.calls ++ reliableOrderedTo a (Server.step w.server event).2 := by
      simp [reliableOrderedTo]
    simp only [handled, happend, hsplit, List.append_assoc]

/-! ### The messages to the client -/

/-- The messages to the client are none, or its assignment and then nothing about itself. -/
theorem Linked.messages (h : Linked Holds config a w) : orderedMessages a w.calls = [] ∨
    ∃ p ∈ w.server.players, p.address = a ∧ ∃ position rest,
      orderedMessages a w.calls = .createLocalNetPlayer p.networkId position :: rest ∧
      ∀ m ∈ rest, ∀ k, messageNote m ≠ some (.assign k) ∧
        (messageNote m = some (.destroy k) → (some p.networkId : Option Int32) ≠ some k) := by
  have hsends := h.channel.roster.sends
  by_cases hseated : ∃ p ∈ w.server.players, p.address = a
  · right
    rcases hseated with ⟨p, hp, rfl⟩
    have hgreeted := h.greeted.greeted (List.mem_map_of_mem (f := Player.member) hp) rfl
    rcases Attendance.messages_of_greeted hsends hgreeted (List.mem_singleton_self _) with
      ⟨position, rest, hmessages, hforeign⟩
    exact ⟨p, hp, rfl, position, rest, hmessages, hforeign⟩
  · left
    have hnobody : ∀ m ∈ members w.server.players, m.addr ≠ a :=
      fun m hm ha => hseated (seated_iff.2 ⟨m, hm, ha⟩)
    have hnotes : (orderedMessages a w.calls).filterMap messageNote = [] :=
      (notes_orderedMessages hsends a).trans (h.greeted.silent hnobody)
    rw [List.filterMap_eq_nil_iff] at hnotes
    rw [List.eq_nil_iff_forall_not_mem]
    intro m hm
    have hsaid := (mem_orderedMessages hsends hm).2
    rw [hnotes m hm] at hsaid
    cases hsaid

/-- The next of the messages is one of the server's. -/
theorem Linked.next (h : Linked Holds config a w) {data : List UInt8}
    {arrived rest : List (List UInt8)}
    (hsplit : reliableOrderedTo a w.calls = arrived ++ data :: rest) :
    ∃ m : Message, m.Countable ∧ data = m.bytes ∧ orderedMessages a w.calls =
      arrived.filterMap Message.parse ++ m :: rest.filterMap Message.parse := by
  have hmem : data ∈ reliableOrderedTo a w.calls := by simp [hsplit]
  rcases mem_reliableOrderedTo hmem with ⟨send, hsend, _, rfl⟩
  rcases h.channel.roster.sends (.send send) hsend send rfl with ⟨m, hm, heq, _⟩
  have hbytes : send.data = m.bytes := by
    injection heq with heq
    exact congrArg Send.data heq
  refine ⟨m, hm, hbytes, ?_⟩
  rw [orderedMessages, hsplit, List.filterMap_append, List.filterMap_cons, hbytes, hm.parse_bytes]

/-- The client can handle the next message, and holds what it says. -/
theorem Linked.hear (hE : (E a).Lawful Holds) (h : Linked Holds config a w)
    {arrived rest : List (List UInt8)} {packet : Packet} (rounds : Nat)
    (hsplit : reliableOrderedTo a w.calls = arrived ++ packet.data :: rest) {s : Session σ}
    (hheeds : Heeds Holds s (arrived.filterMap Message.parse)) :
    ∃ s', s.step (E a) (.packet packet rounds) = .ok s' ∧
      Heeds Holds s' ((arrived ++ [packet.data]).filterMap Message.parse) := by
  rcases h.next hsplit with ⟨m, hm, hdata, hmessages⟩
  have hparse : (arrived ++ [packet.data]).filterMap Message.parse =
      arrived.filterMap Message.parse ++ [m] := by
    rw [List.filterMap_append, List.filterMap_cons, hdata, hm.parse_bytes]
    rfl
  have hupdate := Session.update_of_bytes (E a) rounds hheeds.1 hdata hm
  rw [hparse, Session.step, hupdate]
  have hmem : m ∈ orderedMessages a w.calls := by simp [hmessages]
  have hsaid := (mem_orderedMessages h.channel.roster.sends hmem).2
  rcases Option.isSome_iff_exists.1 hsaid with ⟨said, hsaid⟩
  generalize arrived.filterMap Message.parse = before at hheeds hmessages ⊢
  rcases h.messages with hnil | ⟨p, _, _, position, later, hfirst, hforeign⟩
  · simp [hnil] at hmessages
  · rw [hfirst] at hmessages
    cases before with
    | nil =>
      -- The assignment, for which the session has been waiting.
      rcases List.cons.inj hmessages with ⟨rfl, _⟩
      have hready := (hheeds.2.resolve_right fun hlate => hlate.1 rfl).2
      rcases hready.assign hE packet.systemAddress p.networkId position with
        ⟨s', hok, hfollows, hactive⟩
      exact ⟨s', hok, hactive, Or.inr ⟨by simp, hfollows⟩⟩
    | cons first before =>
      rcases List.cons.inj hmessages with ⟨rfl, hlater⟩
      have hfollows := (hheeds.2.resolve_left fun hearly => by cases hearly.1).2
      have hnow := hforeign m (by simp [hlater])
      rw [hsaid] at hnow
      -- There has been no other assignment.
      have hown : (Listener.after ((Message.createLocalNetPlayer p.networkId position ::
          before).filterMap messageNote)).own = some p.networkId := by
        have hnotes : (Message.createLocalNetPlayer p.networkId position ::
            before).filterMap messageNote =
              [] ++ .assign p.networkId :: before.filterMap messageNote := rfl
        rw [hnotes, Listener.after_assign, Listener.foldl_hear_own]
        intro k hk
        rcases List.mem_filterMap.1 hk with ⟨m', hm', hassign⟩
        exact (hforeign m' (by simp [hlater, hm']) k).1 hassign
      rcases hfollows.receive hE hsaid (fun k heq => (hnow k).1 (by rw [heq]))
        (fun k heq => hown ▸ (hnow k).2 (by rw [heq])) packet.systemAddress with
        ⟨s', hok, hfollows', hnetwork⟩
      refine ⟨s', hok, by rw [hnetwork]; exact hheeds.1, Or.inr ⟨by simp, ?_⟩⟩
      have hlast : [m].filterMap messageNote = [said] := by simp [hsaid]
      rw [List.filterMap_append, hlast, Listener.after_snoc]
      exact hfollows'

theorem Heeds.kept {s s' : Session σ} {messages : List Message} (h : Heeds Holds s messages)
    (hkept : s.Kept Holds s') : Heeds Holds s' messages := by
  refine ⟨hkept.active.trans h.1, ?_⟩
  rcases h.2 with ⟨hnone, hready⟩ | ⟨hsome, hfollows⟩
  · exact Or.inl ⟨hnone, hkept.ready hready⟩
  · exact Or.inr ⟨hsome, hkept.follows hfollows⟩

/-- What does not arrive in order is motion. -/
theorem Linked.motion_of_unordered (h : Linked Holds config a w) {send : Send} {packet : Packet}
    (hsend : PeerCall.send send ∈ w.calls) (hreliability : send.reliability ≠ .reliableOrdered)
    (hdata : send.data = packet.data) : ∃ motion : Motion, packet.kind = motion.kind := by
  rcases h.channel.roster.sends (.send send) hsend send rfl with ⟨m, _, heq, _⟩
  injection heq with heq
  rw [heq] at hreliability
  have hkind : packet.kind = m.kind :=
    Packet.kind_of_bytes (hdata.symm.trans (congrArg Send.data heq))
  cases m with
  | playerMovement => exact ⟨.movement, hkind⟩
  | playerRotation => exact ⟨.rotation, hkind⟩
  | _ => exact absurd rfl hreliability

/-- The client opens its session. -/
theorem heeds_opened {process : Process σ} (hhero : ∃ d, Holds process.engine 0 d) (E : Engine σ)
    (ip : String) (port : UInt16) (connected : Bool) :
    Heeds Holds (Session.opened E process (.connect ip port true connected)) [] :=
  ⟨rfl, Or.inl ⟨rfl, ⟨rfl, rfl, rfl, hhero⟩⟩⟩

/-- What the client's own step does: it heeds the next message, or keeps what it has heeded. -/
theorem Linked.attends (hE : (E a).Lawful Holds) (hdisplays : (E a).Displays Holds)
    (h : Linked Holds config a w) {s s' : Session σ} {event : SessionEvent σ}
    {rest : List (List UInt8)} (hs : w.clients a = some s) (hsteady : s.Steady Holds event)
    (harrives : w.Arrives a event rest) (hok : s.step (E a) event = .ok s') :
    ∃ arrived, reliableOrderedTo a w.calls = arrived ++ rest ∧
      Heeds Holds s' (arrived.filterMap Message.parse) := by
  rcases h.client with ⟨arrived, hsplit, -, hheeds⟩
  have hnow := hheeds s hs
  have hkeeps : s.Kept Holds s' → rest = w.inFlight a →
      ∃ arrived', reliableOrderedTo a w.calls = arrived' ++ rest ∧
        Heeds Holds s' (arrived'.filterMap Message.parse) := by
    rintro hkept rfl
    exact ⟨arrived, hsplit, hnow.kept hkept⟩
  cases harrives with
  | @ordered packet rounds _ hflight =>
    rw [hflight] at hsplit
    rcases h.hear hE rounds hsplit hnow with ⟨t, ht, hheeds'⟩
    obtain rfl := Except.ok.inj (hok.symm.trans ht)
    exact ⟨arrived ++ [packet.data], by simpa using hsplit, hheeds'⟩
  | unordered hsend _ hreliability hdata =>
    refine hkeeps (Session.kept_step hdisplays hok hsteady ?_) rfl
    rintro _ _ heq
    cases heq
    exact Or.inr (h.motion_of_unordered hsend hreliability hdata)
  | transport htransport =>
    refine hkeeps (Session.kept_step hdisplays hok hsteady ?_) rfl
    rintro _ _ heq
    cases heq
    exact Or.inl htransport
  | own hother =>
    refine hkeeps (Session.kept_step hdisplays hok hsteady ?_) rfl
    exact fun packet rounds heq => absurd heq (hother packet rounds)

theorem Linked.step (hE : (E a).Lawful Holds) (hdisplays : (E a).Displays Holds)
    (h : Linked Holds config a w) (hstep : CalmStep E isClient Holds a w w') :
    Linked Holds config a w' := by
  rcases hstep with ⟨label, hperforms, hcalm⟩
  rcases h.client with ⟨arrived, hsplit, hnone, hheeds⟩
  cases label with
  | server event =>
    rcases hperforms with ⟨_, rfl⟩
    exact h.server hcalm
  | connect b process ip port startup connected =>
    rcases hperforms with ⟨_, hfresh, rfl⟩
    refine ⟨h.channel, h.peer, h.fresh, h.informed, h.greeted, arrived, hsplit, ?_, ?_⟩
    · intro hnobody
      by_cases hb : a = b
      · simp [hb] at hnobody
      · exact hnone (by simpa [Function.update_of_ne hb] using hnobody)
    · intro s hs
      rcases client_cases hs with ⟨rfl, rfl⟩ | hold
      · rcases hcalm rfl with ⟨rfl, hhero⟩
        rw [hnone hfresh]
        exact heeds_opened hhero _ _ _ _
      · exact hheeds s hold
  | client b event =>
    rcases hperforms with ⟨s, s', rest, hs, harrives, hok, rfl⟩
    by_cases hb : a = b
    · subst hb
      rcases h.attends hE hdisplays hs (hcalm rfl s hs) harrives hok with
        ⟨arrived', hsplit', hheeds'⟩
      refine ⟨h.channel, h.peer, h.fresh, h.informed, h.greeted, arrived', ?_, ?_, ?_⟩
      · simpa using hsplit'
      · intro hnobody
        simp at hnobody
      · intro t ht
        simp only [Function.update_self, Option.some.injEq] at ht
        exact ht ▸ hheeds'
    · refine ⟨h.channel, h.peer, h.fresh, h.informed, h.greeted, arrived, ?_, ?_, ?_⟩
      · simpa [Function.update_of_ne hb] using hsplit
      · simpa [Function.update_of_ne hb] using hnone
      · simpa [Function.update_of_ne hb] using hheeds

theorem linked (hE : (E a).Lawful Holds) (hdisplays : (E a).Displays Holds)
    (h : ReflTransGen (CalmStep E isClient Holds a) (begun config nowMs restored) w) :
    Linked Holds config a w := by
  induction h with
  | refl => exact Linked.begun
  | tail _ hstep ih => exact ih.step hE hdisplays hstep

/-! ### What a listener has made of them -/

/-- The messages that have arrived announce nobody twice, nor the client itself. -/
theorem Linked.distinct (h : Linked Holds config a w) {arrived rest : List (List UInt8)}
    (hsplit : reliableOrderedTo a w.calls = arrived ++ rest) :
    (Listener.after ((arrived.filterMap Message.parse).filterMap messageNote)).Distinct := by
  have hadmits := h.channel.every_admits h.fresh a
  rw [orderedMessages, hsplit, List.filterMap_append, List.filterMap_append] at hadmits
  exact (Listener.distinct_of_admits (History.every_append.1 hadmits).1).1

theorem oneAvatarPerId_of_heeds {s : Session σ} {messages : List Message}
    (h : Heeds Holds s messages)
    (hdistinct : (Listener.after (messages.filterMap messageNote)).Distinct) :
    s.OneAvatarPerId := by
  rcases h.2 with ⟨_, hready⟩ | ⟨_, hfollows⟩
  · rw [Session.oneAvatarPerId_iff, Session.networkIds_eq, hready.localNetPlayer,
      hready.netPlayers]
    exact List.nodup_nil
  · exact oneAvatarPerId_of_follows hfollows hdistinct

/-- A client to which nothing is on its way has heard what its member has been told. -/
theorem Linked.settled (h : Linked Holds config a w) (hflight : w.inFlight a = [])
    {p : Player} (hp : p ∈ w.server.players) (ha : p.address = a) {s : Session σ}
    (hs : w.clients a = some s) : ∃ l, s.Follows Holds l ∧
      Audience.presentOnly.Knows (members w.server.players) p.member l := by
  rcases h.client with ⟨arrived, hsplit, _, hheeds⟩
  rw [hflight, List.append_nil] at hsplit
  have hnotes : (arrived.filterMap Message.parse).filterMap messageNote =
      heard (notes w.calls) a := by
    rw [← hsplit]
    exact notes_orderedMessages h.channel.roster.sends a
  have hmember : p.member ∈ members w.server.players := List.mem_map_of_mem hp
  refine ⟨_, ?_, h.informed.knows p.member hmember⟩
  rw [show p.member.addr = a from ha, ← hnotes]
  rcases (hheeds s hs).2 with ⟨hnone, _⟩ | ⟨_, hfollows⟩
  · -- The member has been assigned its id.
    rcases h.greeted.first p.member hmember ha with ⟨rest, hheard, _⟩
    rw [← hnotes, hnone] at hheard
    cases hheard
  · exact hfollows

/-- It shows what its member has been told of. -/
theorem Linked.shows (hE : (E a).Lawful Holds) (h : Linked Holds config a w)
    (hflight : w.inFlight a = []) {p : Player} (hp : p ∈ w.server.players) (ha : p.address = a)
    {s : Session σ} (hs : w.clients a = some s) :
    (∃ own, s.localNetPlayer = some own ∧ own.networkId = p.networkId) ∧
      (p.spawned = true → (s.definitionTable (E a)).Perm
        ((recipients w.server.players p.networkId).map fun q =>
          (q.networkId, some q.defGlobalIndex))) ∧
      (p.spawned = false → s.netPlayers = []) := by
  rcases h.settled hflight hp ha hs with ⟨l, hfollows, hknows⟩
  refine ⟨?_, ?_, ?_⟩
  · rcases hfollows.localNetPlayer with ⟨own, _, hown, hid, _⟩
    rw [hknows.own] at hid
    exact ⟨own, hown, (Option.some.inj hid).symm⟩
  · intro hspawned
    let A : Audience SystemAddress Int32 Int32 := Audience.presentOnly
    let _ : DecidablePred A.hosted := fun _ => instDecidableFalse
    have hperm := hknows.perm h.informed.wf h.informed.foreign hspawned
    have hall : (l.table.filter fun _ => !decide False) = l.table := by simp
    have hpeers : peerEntries (members w.server.players) p.networkId =
        (recipients w.server.players p.networkId).map fun q =>
          (q.networkId, q.defGlobalIndex) := by
      rw [peerEntries, peers_members, members, List.map_map]
      rfl
    have hentries : l.table.Perm ((recipients w.server.players p.networkId).map fun q =>
        (q.networkId, q.defGlobalIndex)) := hpeers ▸ hall ▸ hperm
    rw [hfollows.definitionTable hE]
    simpa [Function.comp_def] using hentries.map fun e : Int32 × Int32 => (e.1, some e.2)
  · intro hspawned
    have hnobody := hknows.deaf hspawned
    have hids := hfollows.ids
    rw [Listener.ids, hnobody] at hids
    exact List.map_eq_nil_iff.1 hids

/-- A client can handle all that is on its way to it. -/
theorem Linked.settle (hE : (E a).Lawful Holds) (hdisplays : (E a).Displays Holds)
    (h : Linked Holds config a w) {s : Session σ} (hs : w.clients a = some s) :
    ∃ s', ReflTransGen (CalmStep E isClient Holds a) w
      { w with
        clients := Function.update w.clients a (some s')
        inFlight := Function.update w.inFlight a [] } := by
  generalize hflight : w.inFlight a = flight
  induction flight generalizing w s with
  | nil =>
    refine ⟨s, ?_⟩
    rw [← hs, ← hflight, Function.update_eq_self, Function.update_eq_self]
  | cons data rest ih =>
    rcases h.client with ⟨arrived, hsplit, _, hheeds⟩
    rw [hflight] at hsplit
    rcases h.next hsplit with ⟨m, _, rfl, _⟩
    have hnext : reliableOrderedTo a w.calls =
        arrived ++ (Session.packetFrom a m).data :: rest := hsplit
    rcases h.hear hE 0 hnext (hheeds s hs) with ⟨s', hok, _⟩
    have hsteady : s.Steady Holds (.packet (Session.packetFrom a m) 0) := by
      have hkind : (Session.packetFrom a m).kind = m.kind := Packet.kind_of_bytes rfl
      rw [Session.Steady, hkind]
      cases m <;> simp [Message.kind]
    have hstep : CalmStep E isClient Holds a w
        { w with
          clients := Function.update w.clients a (some s')
          inFlight := Function.update w.inFlight a rest } :=
      calmStep_client hs (.ordered hflight) hok hsteady
    have hs' : Function.update w.clients a (some s') a = some s' := Function.update_self ..
    rcases ih (h.step hE hdisplays hstep) hs' (Function.update_self ..) with ⟨t, hrest⟩
    refine ⟨t, .head hstep ?_⟩
    simpa using hrest

end Steps

/-! ## Agreement -/

/-- As long as nothing disturbs its session, a client shows nobody twice, and when nothing is on its
way to it, it has the id that the server knows it by and shows the players that the server has: the
others that have spawned, if it has spawned itself, and nobody otherwise. -/
theorem tables_agree (E : SystemAddress → Engine σ) (isClient : SystemAddress → Prop)
    (config : Config) (nowMs : Int) (restored : Option Vec3) (Holds : σ → Int → Int32 → Prop)
    (a : SystemAddress) (hE : (E a).Lawful Holds) (hdisplays : (E a).Displays Holds) (w : World σ)
    (h : ReflTransGen (CalmStep E isClient Holds a) (begun config nowMs restored) w)
    (s : Session σ) (hs : w.clients a = some s) :
    s.OneAvatarPerId ∧
      ∀ p ∈ w.server.players, p.address = a → w.inFlight a = [] →
        (∃ own, s.localNetPlayer = some own ∧ own.networkId = p.networkId) ∧
        (p.spawned = true → (s.definitionTable (E a)).Perm
          ((recipients w.server.players p.networkId).map fun q =>
            (q.networkId, some q.defGlobalIndex))) ∧
        (p.spawned = false → s.netPlayers = []) := by
  have hlinked := linked hE hdisplays h
  constructor
  · rcases hlinked.client with ⟨arrived, hsplit, _, hheeds⟩
    exact oneAvatarPerId_of_heeds (hheeds s hs) (hlinked.distinct hsplit)
  · intro p hp ha hflight
    exact hlinked.shows hE hflight hp ha hs

/-- A client never gets stuck on its messages: it can handle all that is on its way to it, one after
the other, without anybody else's help, and it has not been disturbed then either. -/
theorem catches_up (E : SystemAddress → Engine σ) (isClient : SystemAddress → Prop)
    (config : Config) (nowMs : Int) (restored : Option Vec3) (Holds : σ → Int → Int32 → Prop)
    (a : SystemAddress) (hE : (E a).Lawful Holds) (hdisplays : (E a).Displays Holds) (w : World σ)
    (h : ReflTransGen (CalmStep E isClient Holds a) (begun config nowMs restored) w)
    (s : Session σ) (hs : w.clients a = some s) :
    ∃ s', ReflTransGen (CalmStep E isClient Holds a) w
      { w with
        clients := Function.update w.clients a (some s')
        inFlight := Function.update w.inFlight a [] } :=
  (linked hE hdisplays h).settle hE hdisplays hs

/-! ### A hero and a stranger -/

/-- A world in which the hero's game is the one mod client, after a run that disturbs nobody. -/
abbrev HeroRun (w : World Engine.Table) : Prop :=
  ReflTransGen (CalmStep (fun _ => heroEngine) (fun b => b = heroAddress) Engine.Table.Holds
    heroAddress) (begun {} 0 none) w

/-- The hero's game has connected to the server. -/
def heroConnected : World Engine.Table :=
  { (begun {} 0 none : World Engine.Table) with
    clients := Function.update (fun _ => none) heroAddress (some heroSession) }

theorem heroConnected_run : HeroRun heroConnected := by
  have hbegun : HeroRun (begun {} 0 none) := .refl
  refine hbegun.tail ⟨.connect heroAddress
    { engine := [(0, 2000)], boundAddress := heroAddress } "127.0.0.1" 60000 true true, ?_, ?_⟩
  · exact ⟨rfl, rfl, rfl⟩
  · exact fun _ => ⟨rfl, 2000, by decide, rfl⟩

section HeroRuns

variable {w : World Engine.Table}

theorem HeroRun.server (h : HeroRun w) (packet : Packet)
    (hfrom : packet.systemAddress = heroAddress → w.FromClient packet)
    (honce : (findByAddress w.server.players packet.systemAddress).all
      (fun self => !self.spawned) = true)
    (hseated : Seated w.server heroAddress →
      Seated (Server.step w.server (.packet packet 0 0)).1 heroAddress) :
    HeroRun (w.handled (.packet packet 0 0)) :=
  h.tail (calmStep_packet hfrom honce hseated)

theorem HeroRun.hero (h : HeroRun w) (event : SessionEvent Engine.Table)
    (s' : Session Engine.Table) {s : Session Engine.Table} {rest : List (List UInt8)}
    (hs : w.clients heroAddress = some s) (harrives : w.Arrives heroAddress event rest)
    (hok : s.step heroEngine event = .ok s') (hsteady : s.Steady Engine.Table.Holds event) :
    HeroRun { w with
      clients := Function.update w.clients heroAddress (some s')
      inFlight := Function.update w.inFlight heroAddress rest } :=
  h.tail (calmStep_client hs harrives hok hsteady)

theorem steady_heroPacket {messageId : UInt8} {body : List UInt8} {s : Session Engine.Table}
    (h : MessageKind.ofByte messageId ∉ [MessageKind.disconnectionNotification, .connectionLost,
      .connectionAttemptFailed]) :
    s.Steady Engine.Table.Holds (.packet (heroPacket messageId body) 0) :=
  h

end HeroRuns

/-- The hero's game asks to join and finds its assignment on the way. -/
theorem catches_up_hero : ∃ w : World Engine.Table, w.inFlight heroAddress ≠ [] ∧ ∃ s',
    ReflTransGen (CalmStep (fun _ => heroEngine) (fun b => b = heroAddress) Engine.Table.Holds
      heroAddress) w
      { w with
        clients := Function.update w.clients heroAddress (some s')
        inFlight := Function.update w.inFlight heroAddress [] } := by
  have haccepted := heroConnected_run.hero (.packet (heroPacket 16 []) 0)
    (heroSession.handleConnectionRequestAccepted (heroPacket 16 [])) rfl
    (.transport (by decide)) rfl (steady_heroPacket (by decide))
  have hjoined := HeroRun.server haccepted (heroPacket 134 [])
    (fun _ => Or.inr ⟨_, rfl, _, List.mem_singleton_self _, rfl⟩) (by decide +kernel)
    (by decide +kernel)
  refine ⟨_, ?_, catches_up (fun _ => heroEngine) (fun b => b = heroAddress) {} 0 none
    Engine.Table.Holds heroAddress (Engine.table_lawful _) (Engine.table_displays _) _ hjoined
    (heroSession.handleConnectionRequestAccepted (heroPacket 16 [])) rfl⟩
  decide +kernel

/-- The hero's record, and the stranger's, when both have spawned. -/
def heroRecord : Player :=
  { networkId := 1, address := heroAddress, guid := 0, spawned := true, defGlobalIndex := 2000,
    packetsIn := 1, rateWindowCount := 1 }

def strangerRecord : Player :=
  { networkId := 2, address := strangerAddress, guid := 1, spawned := true, defGlobalIndex := 7,
    position := { x := 0x3F800000 }, packetsIn := 1, rateWindowCount := 1 }

/-- The hero joins and spawns, the stranger does too, and the hero's game hears of it. -/
theorem heroAccompanied_run : ∃ w : World Engine.Table, HeroRun w ∧
    w.clients heroAddress = some heroAccompanied ∧ w.inFlight heroAddress = [] ∧
    w.server.players = [heroRecord, strangerRecord] := by
  have hstranger : ∀ (messageId : UInt8) (body : List UInt8),
      (strangerPacket messageId body).systemAddress = heroAddress → False := by
    intro messageId body hclient
    exact absurd (show strangerAddress = heroAddress from hclient) (by decide)
  have haccepted := heroConnected_run.hero (.packet (heroPacket 16 []) 0)
    (heroSession.handleConnectionRequestAccepted (heroPacket 16 [])) rfl
    (.transport (by decide)) rfl (steady_heroPacket (by decide))
  have hjoined := HeroRun.server haccepted (heroPacket 134 [])
    (fun _ => Or.inr ⟨_, rfl, _, List.mem_singleton_self _, rfl⟩) (by decide +kernel)
    (by decide +kernel)
  have hassigned := hjoined.hero
    (.packet (heroPacket 135 ([0, 0, 0, 1] ++ List.replicate 12 0)) 0) heroAssigned rfl
    (@Arrives.ordered _ _ _ _ _ [] (by decide +kernel)) rfl (steady_heroPacket (by decide))
  have hannounced := hassigned.hero .updateRegionLoad heroAnnounced rfl
    (.own (by intro packet rounds heq; cases heq)) rfl trivial
  have hspawned := hannounced.server
    (heroPacket 136 ([0, 0, 0, 1] ++ [0, 0, 7, 0xD0] ++ List.replicate 12 0))
    (fun _ => Or.inr ⟨_, rfl, _, List.mem_of_getLast? rfl, rfl⟩) (by decide +kernel)
    (by decide +kernel)
  have harrived := hspawned.server (strangerPacket 134 []) (fun h => (hstranger _ _ h).elim)
    (by decide +kernel) (by decide +kernel)
  have hcreated := harrived.server
    (strangerPacket 136 ([0, 0, 0, 9] ++ [0, 0, 0, 7] ++ strangerPosition))
    (fun h => (hstranger _ _ h).elim) (by decide +kernel) (by decide +kernel)
  have haccompanied := hcreated.hero
    (.packet (heroPacket 136 ([0, 0, 0, 2] ++ [0, 0, 0, 7] ++ strangerPosition)) 0)
    heroAccompanied rfl (@Arrives.ordered _ _ _ _ _ [] (by decide +kernel)) rfl
    (steady_heroPacket (by decide))
  exact ⟨_, haccompanied, rfl, rfl, by decide +kernel⟩

/-- The stranger has spawned, and the hero's game shows it. -/
theorem tables_agree_stranger : ∃ w : World Engine.Table, ∃ s p,
    w.clients heroAddress = some s ∧ p ∈ w.server.players ∧ p.address = heroAddress ∧
      p.spawned = true ∧ w.inFlight heroAddress = [] ∧ s.OneAvatarPerId ∧
      (s.definitionTable heroEngine).Perm ((recipients w.server.players p.networkId).map fun q =>
        (q.networkId, some q.defGlobalIndex)) ∧
      recipients w.server.players p.networkId ≠ [] := by
  rcases heroAccompanied_run with ⟨w, hrun, hs, hflight, hplayers⟩
  have hagree := tables_agree (fun _ => heroEngine) (fun b => b = heroAddress) {} 0 none
    Engine.Table.Holds heroAddress (Engine.table_lawful _) (Engine.table_displays _) w hrun
    heroAccompanied hs
  have hhero : heroRecord ∈ w.server.players := hplayers ▸ List.mem_cons_self
  have hmember := hagree.2 heroRecord hhero rfl hflight
  refine ⟨w, heroAccompanied, heroRecord, hs, hhero, rfl, rfl, hflight, hagree.1,
    hmember.2.1 rfl, ?_⟩
  rw [hplayers]
  decide

end World
end Crossover
