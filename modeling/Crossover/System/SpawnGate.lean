import Crossover.Mod.Waiting
import Crossover.Server.Gate

/-!
# SpawnGate — the server composed with its mod clients

A `World` is the server, the sessions that are connected to it and the reliable ordered messages on
their way.  Some addresses belong to mod clients, which do what `Session.step` does; the others may
send the server anything.  The server's gate makes up for the tests that the clients leave out:
until a client has announced itself, there is nothing on its way but an assignment.
-/

namespace Crossover

open Wire Server Crossover.Mod

/-- The server, the mod clients' sessions, and what has been sent to each address reliable ordered
and has not been delivered. -/
structure World (σ : Type) where
  server : RelayServer
  calls : List PeerCall := []
  clients : SystemAddress → Option (Session σ) := fun _ => none
  inFlight : SystemAddress → List (List UInt8) := fun _ => []

namespace World

variable {σ : Type}

/-- A packet that SLikeNet makes itself: its id is none of the programs' own. -/
def Transport (packet : Packet) : Prop :=
  packet.kind ∉ [MessageKind.connectionNotification, .createLocalNetPlayer, .createNetPlayer,
    .createNetPlayers, .destroyNetPlayer, .playerMovement, .playerRotation]

instance (packet : Packet) : Decidable (Transport packet) :=
  inferInstanceAs (Decidable (_ ∉ _))

/-- What the server gets from the address of a mod client: a notification of the transport, or
something that the client's session has sent. -/
def FromClient (w : World σ) (packet : Packet) : Prop :=
  Transport packet ∨ ∃ s, w.clients packet.systemAddress = some s ∧
    ∃ send, PeerCall.send send ∈ s.calls ∧ send.data = packet.data

/-- An event the server can be about to handle. -/
def Handles (isClient : SystemAddress → Prop) (w : World σ) : Event → Prop
  | .packet packet _ _ => isClient packet.systemAddress → w.FromClient packet
  | _ => True

/-- An event a client can be about to handle, with what is left on the way to it afterwards. -/
inductive Arrives (w : World σ) (a : SystemAddress) : SessionEvent σ → List (List UInt8) → Prop
  /-- The next of the messages that arrive in order. -/
  | ordered {packet : Packet} {rounds : Nat} {rest : List (List UInt8)} :
      w.inFlight a = packet.data :: rest → Arrives w a (.packet packet rounds) rest
  /-- One of the others, which may be lost, overtake each other and repeat themselves. -/
  | unordered {packet : Packet} {rounds : Nat} {send : Send} :
      PeerCall.send send ∈ w.calls → send.address = a → send.reliability ≠ .reliableOrdered →
      send.data = packet.data → Arrives w a (.packet packet rounds) (w.inFlight a)
  | transport {packet : Packet} {rounds : Nat} :
      Transport packet → Arrives w a (.packet packet rounds) (w.inFlight a)
  /-- The hooks run, the game goes on, the player disconnects. -/
  | own {event : SessionEvent σ} :
      (∀ packet rounds, event ≠ .packet packet rounds) → Arrives w a event (w.inFlight a)

/-- The server handles an event, a new client connects from an address that nobody has connected
from, or a client handles an event.  A client that fails takes no step. -/
inductive Step (E : SystemAddress → Engine σ) (isClient : SystemAddress → Prop) :
    World σ → World σ → Prop
  | server {w : World σ} {event : Event} :
      w.Handles isClient event →
      Step E isClient w
        { w with
          server := (Server.step w.server event).1
          calls := w.calls ++ (Server.step w.server event).2
          inFlight := fun a =>
            w.inFlight a ++ reliableOrderedTo a (Server.step w.server event).2 }
  | connect {w : World σ} {a : SystemAddress} (process : Process σ) (ip : String) (port : UInt16)
      (startup connected : Bool) :
      isClient a → w.clients a = none →
      Step E isClient w
        { w with
          clients := Function.update w.clients a
            (some (Session.opened (E a) process (.connect ip port startup connected))) }
  | client {w : World σ} {a : SystemAddress} {s s' : Session σ} {event : SessionEvent σ}
      {rest : List (List UInt8)} :
      w.clients a = some s → w.Arrives a event rest → s.step (E a) event = .ok s' →
      Step E isClient w
        { w with
          clients := Function.update w.clients a (some s')
          inFlight := Function.update w.inFlight a rest }

/-- A world that a fresh server can get into. -/
inductive Reachable (E : SystemAddress → Engine σ) (isClient : SystemAddress → Prop)
    (config : Config) (nowMs : Int) (restored : Option Vec3) : World σ → Prop
  | start : Reachable E isClient config nowMs restored { server := start config nowMs restored }
  | step {w w' : World σ} : Reachable E isClient config nowMs restored w →
      Step E isClient w w' → Reachable E isClient config nowMs restored w'

/-! ## The invariant -/

/-- Nobody with this address has spawned, and it has been sent nothing but assignments. -/
structure Gated (a : SystemAddress) (s : RelayServer) (calls : List PeerCall) : Prop where
  unspawned : ∀ p ∈ s.players, p.address = a → p.spawned = false
  assigned : ∀ m ∈ messagesTo a calls, m.isAssignment = true

/-- The client at an address, if there is one, waits for its local player. -/
def ClientWaits (w : World σ) (a : SystemAddress) : Prop :=
  ∀ s, w.clients a = some s → s.Waiting

/-- What every reachable world keeps. -/
structure Inv (isClient : SystemAddress → Prop) (config : Config) (w : World σ) : Prop where
  channel : ChannelInv config w.server w.calls
  clients : ∀ a s, w.clients a = some s → isClient a ∧ s.ClientInv
  inFlight : ∀ a, ∀ data ∈ w.inFlight a, ∃ send, PeerCall.send send ∈ w.calls ∧
    send.address = a ∧ send.data = data
  gated : ∀ a, isClient a → w.ClientWaits a → Gated a w.server w.calls

/-! ## Packets -/

theorem Transport.ne {packet : Packet} (h : Transport packet) {kind : MessageKind}
    (hkind : kind ∈ [MessageKind.connectionNotification, .createLocalNetPlayer, .createNetPlayer,
      .createNetPlayers, .destroyNetPlayer, .playerMovement, .playerRotation]) :
    packet.kind ≠ kind := by
  intro heq
  exact h (heq ▸ hkind)

theorem Transport.tolerable {packet : Packet} (h : Transport packet) :
    Session.Tolerable packet :=
  ⟨h.ne (by simp), h.ne (by simp), h.ne (by simp)⟩

theorem mem_reliableOrderedTo {a : SystemAddress} {calls : List PeerCall} {data : List UInt8}
    (h : data ∈ reliableOrderedTo a calls) :
    ∃ send, PeerCall.send send ∈ calls ∧ send.address = a ∧ send.data = data := by
  rcases List.mem_filterMap.1 h with ⟨call, hcall, hsent⟩
  cases call with
  | send send =>
    simp only at hsent
    split at hsent
    · rename_i hto
      exact ⟨send, hcall, hto.1, Option.some.inj hsent⟩
    · cases hsent
  | closeConnection address notification => cases hsent
  | shutdown blockDuration => cases hsent

/-- What an address behind the gate has been sent does a waiting client no harm. -/
theorem Gated.tolerable {a : SystemAddress} {s : RelayServer} {calls : List PeerCall}
    (h : Gated a s calls) (hsends : ∀ call ∈ calls, SendsMessage call) {send : Send}
    (hsend : PeerCall.send send ∈ calls) (haddr : send.address = a) {packet : Packet}
    (hdata : send.data = packet.data) : Session.Tolerable packet := by
  rcases hsends (.send send) hsend send rfl with ⟨m, hm, heq, _⟩
  have hbytes : send.data = m.bytes := by
    injection heq with heq
    exact congrArg Send.data heq
  have hmem : m ∈ messagesTo a calls := by
    refine List.mem_filterMap.2 ⟨.send send, hsend, ?_⟩
    simp only [haddr, if_true]
    rw [hbytes, hm.parse_bytes]
  have hkind : packet.kind = m.kind := Packet.kind_of_bytes (hdata.symm.trans hbytes)
  have hassign := h.assigned m hmem
  -- The only message an unannounced client gets is its assignment.
  cases m with
  | createLocalNetPlayer networkId position =>
    refine ⟨?_, ?_, ?_⟩ <;> simp [hkind, Message.kind]
  | _ => cases hassign

/-! ## The server's steps -/

/-- The server does not open the gate of a client that has not announced itself. -/
theorem Gated.step {config : Config} {a : SystemAddress} {s : RelayServer}
    {calls : List PeerCall} (h : Gated a s calls) (hinv : ChannelInv config s calls)
    {event : Event} (hcreate : ¬ CreateFrom a s event) :
    Gated a (Server.step s event).1 (calls ++ (Server.step s event).2) := by
  have htable := hinv.roster.inv.table
  refine ⟨?_, ?_⟩
  · intro p hp haddr
    cases hspawned : p.spawned with
    | false => rfl
    | true =>
      -- A record spawns by the client's own packet only.
      rcases spawned_step htable hp hspawned with ⟨q, hq, hqaddr, hwhy⟩
      rcases hwhy with hbefore | hfrom
      · have hnot := h.unspawned q hq (hqaddr.trans haddr)
        rw [hnot] at hbefore
        cases hbefore
      · exact absurd (haddr ▸ hfrom) hcreate
  · intro m hm
    rw [messagesTo_append] at hm
    rcases List.mem_append.1 hm with hold | hnew
    · exact h.assigned m hold
    · -- An assignment may come again; anything else is for the spawned.
      rcases told_step htable hnew with ⟨hassign, _⟩ | ⟨p, hp, haddr, hwhy⟩
      · exact hassign
      · rcases hwhy with hspawned | hfrom
        · have hnot := h.unspawned p hp haddr
          rw [hnot] at hspawned
          cases hspawned
        · exact absurd hfrom hcreate

/-- A waiting client has not sent the `ID_CREATE_NET_PLAYER` that would open the gate. -/
theorem Inv.no_create {isClient : SystemAddress → Prop} {config : Config} {w : World σ}
    (h : Inv isClient config w) {a : SystemAddress} (ha : isClient a) (hw : w.ClientWaits a)
    {event : Event} (hevent : w.Handles isClient event) : ¬ CreateFrom a w.server event := by
  intro hfrom
  cases event with
  | packet packet tickMs handlerMs =>
    rcases hfrom with ⟨haddr, hkind, _⟩
    rcases hevent (haddr ▸ ha) with htransport | ⟨s, hs, send, hsend, hdata⟩
    · exact htransport.ne (by simp) hkind
    · rw [haddr] at hs
      -- The session's calls hold no creation, but this packet is one.
      have hsilent := ((h.clients a s hs).2.hushed (hw s hs)).silent send hsend
      have hbyte : some idCreateNetPlayer = some packet.id :=
        MessageKind.byte_of_ofByte hkind (by decide)
      apply hsilent
      rw [hdata, packet.data_eq_cons, List.head?_cons, hbyte]
  | tickEnd nowMs persistMs writable => exact hfrom
  | stop writable => exact hfrom

/-! ## The clients' steps -/

/-- The packet that arrives at a waiting client is tolerable. -/
theorem Inv.tolerable {isClient : SystemAddress → Prop} {config : Config} {w : World σ}
    (h : Inv isClient config w) {a : SystemAddress} {s : Session σ} (hs : w.clients a = some s)
    {event : SessionEvent σ} {rest : List (List UInt8)} (harrives : w.Arrives a event rest)
    (hw : s.Waiting) : ∀ packet rounds, event = .packet packet rounds →
      Session.Tolerable packet := by
  intro packet rounds heq
  have hwaits : w.ClientWaits a := by
    intro s' hs'
    obtain rfl := Option.some.inj (hs.symm.trans hs')
    exact hw
  have hgated := h.gated a (h.clients a s hs).1 hwaits
  cases harrives with
  | ordered hflight =>
    cases heq
    rcases h.inFlight a packet.data (by simp [hflight]) with ⟨send, hsend, haddr, hdata⟩
    exact hgated.tolerable h.channel.roster.sends hsend haddr hdata
  | unordered hsend haddr _ hdata =>
    cases heq
    exact hgated.tolerable h.channel.roster.sends hsend haddr hdata
  | transport htransport =>
    cases heq
    exact htransport.tolerable
  | own hother => exact absurd heq (hother packet rounds)

/-- Whatever arrives at a client, it does not follow a null `localNetPlayer`. -/
theorem Inv.safe {E : SystemAddress → Engine σ} (hneg : ∀ a e, (E a).getPlayer e (-1) = none)
    {isClient : SystemAddress → Prop} {config : Config} {w : World σ}
    (h : Inv isClient config w) {a : SystemAddress} {s : Session σ} (hs : w.clients a = some s)
    {event : SessionEvent σ} {rest : List (List UInt8)} (harrives : w.Arrives a event rest) :
    Session.Safe (s.step (E a) event) ∧
      ∀ s', s.step (E a) event = .ok s' → s'.ClientInv :=
  (h.clients a s hs).2.step (hneg a) (h.tolerable hs harrives)

theorem client_cases {clients : SystemAddress → Option (Session σ)} {a b : SystemAddress}
    {s t : Session σ} (h : Function.update clients a (some s) b = some t) :
    b = a ∧ t = s ∨ clients b = some t := by
  by_cases hb : b = a
  · rw [hb, Function.update_self] at h
    exact Or.inl ⟨hb, (Option.some.inj h).symm⟩
  · rw [Function.update_of_ne hb] at h
    exact Or.inr h

theorem rest_subset {w : World σ} {a : SystemAddress} {event : SessionEvent σ}
    {rest : List (List UInt8)} (h : w.Arrives a event rest) : rest ⊆ w.inFlight a := by
  cases h with
  | ordered hflight =>
    rw [hflight]
    exact List.subset_cons_self _ _
  | _ => exact List.Subset.refl _

/-! ## Every step keeps the invariant -/

section Steps

variable {E : SystemAddress → Engine σ} {isClient : SystemAddress → Prop} {config : Config}
  {nowMs : Int} {restored : Option Vec3} {w w' : World σ}

theorem Inv.start (isClient : SystemAddress → Prop) (config : Config) (nowMs : Int)
    (restored : Option Vec3) :
    Inv isClient config ({ server := Server.start config nowMs restored } : World σ) := by
  refine ⟨channelInv_run config nowMs restored [], ?_, ?_, ?_⟩
  · intro a s hs
    cases hs
  · intro a data hdata
    cases hdata
  · intro a _ _
    refine ⟨?_, ?_⟩
    · intro p hp
      cases hp
    · intro m hm
      cases hm

theorem Inv.step (hneg : ∀ a e, (E a).getPlayer e (-1) = none) (h : Inv isClient config w)
    (hstep : Step E isClient w w') : Inv isClient config w' := by
  cases hstep with
  | @server event hevent =>
    refine ⟨h.channel.step event, h.clients, ?_, ?_⟩
    · intro a data hdata
      rcases List.mem_append.1 hdata with hold | hnew
      · rcases h.inFlight a data hold with ⟨send, hsend, hrest⟩
        exact ⟨send, List.mem_append_left _ hsend, hrest⟩
      · rcases mem_reliableOrderedTo hnew with ⟨send, hsend, hrest⟩
        exact ⟨send, List.mem_append_right _ hsend, hrest⟩
    · intro a ha hw
      exact (h.gated a ha hw).step h.channel (h.no_create ha hw hevent)
  | @connect a process ip port startup connected ha hfresh =>
    refine ⟨h.channel, ?_, h.inFlight, ?_⟩
    · intro b s hs
      rcases client_cases hs with ⟨rfl, rfl⟩ | hold
      · exact ⟨ha, Session.clientInv_opened (E b) process ip port startup connected⟩
      · exact h.clients b s hold
    · intro b hb hw
      -- Nobody was at the new client's address, so its gate was closed already.
      refine h.gated b hb ?_
      intro s hs
      have hne : b ≠ a := by
        rintro rfl
        rw [hfresh] at hs
        cases hs
      exact hw s ((Function.update_of_ne hne _ _).trans hs)
  | @client a s s' event rest hs harrives hok =>
    refine ⟨h.channel, ?_, ?_, ?_⟩
    · intro b t ht
      rcases client_cases ht with ⟨rfl, rfl⟩ | hold
      · exact ⟨(h.clients b s hs).1, (h.safe hneg hs harrives).2 t hok⟩
      · exact h.clients b t hold
    · intro b data hdata
      refine h.inFlight b data ?_
      by_cases hb : b = a
      · subst hb
        simp only [Function.update_self] at hdata
        exact rest_subset harrives hdata
      · simpa only [Function.update_of_ne hb] using hdata
    · intro b hb hw
      -- A client that waits behind its step has waited before it.
      refine h.gated b hb ?_
      intro t ht
      by_cases hba : b = a
      · subst hba
        obtain rfl := Option.some.inj (hs.symm.trans ht)
        exact Session.waiting_of_step hok (hw s' (Function.update_self _ _ _))
      · exact hw t ((Function.update_of_ne hba _ _).trans ht)

theorem inv_of_reachable (hneg : ∀ a e, (E a).getPlayer e (-1) = none)
    (h : Reachable E isClient config nowMs restored w) : Inv isClient config w := by
  induction h with
  | start => exact Inv.start isClient config nowMs restored
  | step _ hstep ih => exact ih.step hneg hstep

end Steps

/-! ## The gate -/

/-- The first message to an address is its assignment, and it stays the only one until the server
has processed an `ID_CREATE_NET_PLAYER` from there; and in no interleaving does a client follow a
null `localNetPlayer`. -/
theorem spawn_gate (E : SystemAddress → Engine σ) (hneg : ∀ a e, (E a).getPlayer e (-1) = none)
    (isClient : SystemAddress → Prop) (config : Config) (nowMs : Int) (restored : Option Vec3) :
    (∀ events a,
      let sent := messagesTo a (Server.server.log (Server.start config nowMs restored) events)
      (∀ m rest, sent = m :: rest → m.isAssignment = true) ∧
      (OneConnection a events →
        Server.server.StepsSatisfy (fun s event => ¬ CreateFrom a s event)
          (Server.start config nowMs restored) events →
        sent = [] ∨ ∃ id position, sent = [.createLocalNetPlayer id position])) ∧
    ∀ w : World σ, Reachable E isClient config nowMs restored w →
      ∀ a s, w.clients a = some s → ∀ event rest, w.Arrives a event rest →
        Session.Safe (s.step (E a) event) := by
  refine ⟨?_, ?_⟩
  · intro events a sent
    refine ⟨fun m rest h => first_message config nowMs restored events a h, ?_⟩
    intro hone hcreate
    rcases heldBack_run config nowMs restored events a hcreate hone with ⟨hnil, _⟩ | ⟨hsent, _⟩
    · exact Or.inl hnil
    · exact Or.inr hsent
  · intro w hreach a s hs event rest harrives
    exact ((inv_of_reachable hneg hreach).safe hneg hs harrives).1

/-! ## A client that joins -/

/-- The game of a client whose hero stands in the first region. -/
abbrev heroEngine : Engine Engine.Table :=
  Engine.table fun _ _ => unassignedSystemAddress

def heroAddress : SystemAddress :=
  { ip := 0x0100007F, port := 50001 }

def heroSession : Session Engine.Table :=
  Session.opened heroEngine { engine := [(0, 2000)], boundAddress := heroAddress }
    (.connect "127.0.0.1" 60000 true true)

/-- A packet that the server and the hero's machine exchange. -/
def heroPacket (messageId : UInt8) (body : List UInt8) : Packet where
  systemAddress := heroAddress
  guid := 0
  data := messageId :: body
  nonempty := by simp

/-- The hero connects, asks to join and gets its assignment. -/
theorem spawn_gate_hero :
    Session.Safe ((heroSession.handleConnectionRequestAccepted (heroPacket 16 [])).step heroEngine
      (.packet (heroPacket 135 ([0, 0, 0, 1] ++ List.replicate 12 0)) 0)) := by
  have hgate := (spawn_gate (fun _ => heroEngine) (fun _ _ => rfl) (fun _ => True) {} 0 none).2
  have hstart : Reachable (fun _ => heroEngine) (fun _ => True) {} 0 none
      { server := Server.start {} 0 none } := .start
  have hconnected := hstart.step (@Step.connect _ (fun _ => heroEngine) (fun _ => True) _
    heroAddress { engine := [(0, 2000)], boundAddress := heroAddress } "127.0.0.1" 60000 true true
    trivial rfl)
  have haccepted := hconnected.step (@Step.client _ (fun _ => heroEngine) (fun _ => True) _
    heroAddress heroSession (heroSession.handleConnectionRequestAccepted (heroPacket 16 []))
    (.packet (heroPacket 16 []) 0) []
    (by simp [heroSession]) (.transport (by decide)) rfl)
  have hjoined := haccepted.step (@Step.server _ (fun _ => heroEngine) (fun _ => True) _
    (.packet (heroPacket 134 []) 0 0) (fun _ => Or.inr
      ⟨_, by simp [heroPacket]; rfl, _, List.mem_singleton_self _, rfl⟩))
  refine hgate _ hjoined heroAddress _ (by simp) _ [] (.ordered ?_)
  decide +kernel

end World
end Crossover
