import Crossover.Lib.Machine
import Crossover.Mod.Reach
import Crossover.System.Hosting
import Crossover.System.SpawnGate

/-!
# HostGate — an in-game host and its clients

A `Party` is a hosting mod, the mod clients around it and the reliable ordered messages on their
way.  The host has no gate: it broadcasts to every connection, and there is a connection as soon as
a client has announced itself.  What stands in for a gate is the order of the messages.  The
assignment goes out in the step that makes the connection, so that everything else comes behind it,
unless the host's creature is missing just then.
-/

namespace Crossover

open Wire History Crossover.Mod

/-- The host, the clients' sessions, and what the host has sent to each address reliable ordered
and has not been delivered.  `own` are the addresses at which the host itself is. -/
structure Party (σ : Type) where
  host : Session σ
  own : List SystemAddress
  clients : SystemAddress → Option (Session σ) := fun _ => none
  inFlight : SystemAddress → List (List UInt8) := fun _ => []

namespace Party

variable {σ : Type}

inductive Act (σ : Type)
  | host (event : SessionEvent σ)
  | connect (address : SystemAddress) (process : Process σ) (ip : String) (port : UInt16)
      (startup connected : Bool)
  | client (address : SystemAddress) (event : SessionEvent σ)

/-- What a session has sent. -/
def sentData (s : Session σ) : List (List UInt8) :=
  s.calls.filterMap fun call =>
    match call with
    | .send send => some send.data
    | _ => none

/-- The host gets notifications of the transport and what its clients have sent.  It connects to
nobody, so it is never told that a request has been accepted. -/
def hostGets (p : Party σ) : SessionEvent σ → Bool
  | .packet packet _ =>
      packet.kind != .connectionRequestAccepted &&
        (decide (World.Transport packet) ||
          match p.clients packet.systemAddress with
          | some s => decide (packet.data ∈ sentData s)
          | none => false)
  | _ => true

/-- The packets that do not wait for the ordered ones. -/
def Loose (packet : Packet) : Prop :=
  World.Transport packet ∨ packet.kind = .playerMovement ∨ packet.kind = .playerRotation

instance (packet : Packet) : Decidable (Loose packet) :=
  inferInstanceAs (Decidable (_ ∨ _ ∨ _))

/-- What is left on the way to a client behind an event, if this can be the next one. -/
def clientGets (p : Party σ) (a : SystemAddress) : SessionEvent σ → Option (List (List UInt8))
  | .packet packet _ =>
      if Loose packet then some (p.inFlight a)
      else
        match p.inFlight a with
        | [] => none
        | data :: rest => if packet.data = data then some rest else none
  | _ => some (p.inFlight a)

/-- The host handles an event, a new client connects from an address that nobody has connected
from, or a client handles an event.  A session that fails takes no step. -/
def step (H : Engine σ) (E : SystemAddress → Engine σ) (p : Party σ) :
    Act σ → Party σ × List PeerCall
  | .host event =>
      if p.hostGets event then
        match p.host.step H event with
        | .error _ => (p, [])
        | .ok s =>
            let sent := s.calls.drop p.host.calls.length
            ({ p with
                host := s
                inFlight := fun a => p.inFlight a ++ Server.reliableOrderedTo a sent }, sent)
      else (p, [])
  | .connect a process ip port startup connected =>
      if a ∈ p.own ∨ (p.clients a).isSome = true then (p, [])
      else
        let s := Session.opened (E a) process (.connect ip port startup connected)
        ({ p with clients := Function.update p.clients a (some s) }, [])
  | .client a event =>
      match p.clients a, p.clientGets a event with
      | some s, some rest =>
          match s.step (E a) event with
          | .error _ => (p, [])
          | .ok s =>
              ({ p with
                  clients := Function.update p.clients a (some s)
                  inFlight := Function.update p.inFlight a rest }, [])
      | _, _ => (p, [])

/-- The party as a machine that emits what the host sends. -/
def party (H : Engine σ) (E : SystemAddress → Engine σ) : Machine (Party σ) (Act σ) PeerCall where
  step := step H E

/-- A host whose clients are still to come. -/
def hosted (H : Engine σ) (process : Process σ) (port : UInt16) (startup : Bool) : Party σ where
  host := Session.opened H process (.host port startup)
  own := [process.boundAddress, H.systemAddress ({} : Settings).ip port]

/-! ## The order of the messages -/

def kindOf (data : List UInt8) : Option MessageKind :=
  data.head?.map MessageKind.ofByte

theorem kindOf_packet (packet : Packet) : kindOf packet.data = some packet.kind := by
  rw [packet.data_eq_cons]
  rfl

/-- An `ID_CREATE_LOCAL_NET_PLAYER`. -/
def Assigns (data : List UInt8) : Prop :=
  kindOf data = some .createLocalNetPlayer

/-- What a session without a local player does not survive. -/
def Presumes (data : List UInt8) : Prop :=
  kindOf data = some .connectionNotification ∨ kindOf data = some .createNetPlayer ∨
    kindOf data = some .createNetPlayers

/-- Everything that presumes a local player comes behind an assignment. -/
abbrev InOrder (queue : List (List UInt8)) : Prop :=
  Behind Assigns Presumes queue

theorem tolerable_of_not_presumes {packet : Packet} (h : ¬ Presumes packet.data) :
    Session.Tolerable packet := by
  simpa [Presumes, kindOf_packet, Session.Tolerable, not_or] using h

theorem Loose.tolerable {packet : Packet} (h : Loose packet) : Session.Tolerable packet := by
  rcases h with htransport | hkind | hkind
  · exact htransport.tolerable
  · simp [Session.Tolerable, hkind]
  · simp [Session.Tolerable, hkind]

/-! ## Waiting clients, and steps that presume no local player -/

/-- The client at an address, if there is one, waits for its local player. -/
def Waits (p : Party σ) (a : SystemAddress) : Prop :=
  ∀ s, p.clients a = some s → s.Waiting

/-- The act makes nobody follow a null `localNetPlayer`: a waiting client creates no net player and
no client fails, and whatever the host sends to a waiting client comes behind its assignment. -/
def NeverNull (H : Engine σ) (E : SystemAddress → Engine σ) (p : Party σ) : Act σ → Prop
  | .host event => ∀ a s, p.clients a = some s → s.Waiting →
      InOrder ((p.step H E (.host event)).1.inFlight a)
  | .connect _ _ _ _ _ _ => True
  | .client a event => ∀ s, p.clients a = some s → (p.clientGets a event).isSome = true →
      Session.Safe (s.step (E a) event) ∧
        (s.Waiting → ∀ packet rounds, event = .packet packet rounds →
          packet.kind ≠ .createNetPlayer ∧ packet.kind ≠ .createNetPlayers)

/-- Whoever opens a client's gate has its hero's creature: the host when the client announces
itself, and the client when it gets its assignment. -/
def HeroPresent (H : Engine σ) (E : SystemAddress → Engine σ) (p : Party σ) : Act σ → Prop
  | .host (.packet packet _) => packet.kind = .connectionNotification →
      p.host.network.active = true → p.Waits packet.systemAddress →
      ∀ hero, p.host.localNetPlayer = some hero →
        (p.host.getCreatureFromLocalId H hero.localId).isSome = true
  | .client a (.packet packet _) => packet.kind = .createLocalNetPlayer →
      ∀ s, p.clients a = some s → s.Waiting →
        (s.getCreatureFromLocalId (E a) s.getFreeLocalId).isSome = true
  | _ => True

/-! ## The invariant -/

/-- The client at an address has not got past its assignment. -/
structure Gated (p : Party σ) (a : SystemAddress) : Prop where
  inOrder : InOrder (p.inFlight a)
  assigned : ∀ connection ∈ p.host.network.connections, connection.address = a →
    ∃ data ∈ p.inFlight a, Assigns data

/-- What every run with the heroes present keeps. -/
structure Inv (H : Engine σ) (p : Party σ) : Prop where
  address : p.host.network.active = true →
    H.systemAddress p.host.network.settings.ip p.host.network.settings.port ∈ p.own
  clients : ∀ a s, p.clients a = some s → a ∉ p.own ∧ s.ClientInv
  gated : ∀ a, a ∉ p.own → p.Waits a → p.Gated a

section Start

variable (H : Engine σ) (process : Process σ) (port : UInt16) (startup : Bool)

/-- A new host is connected to itself only, and has kept its own address. -/
theorem opened_host :
    (∀ connection ∈ (Session.opened H process (.host port startup)).network.connections,
      connection.address = process.boundAddress) ∧
    ((Session.opened H process (.host port startup)).network.active = true →
      (Session.opened H process (.host port startup)).network.settings =
        { ({} : Settings) with port := port }) := by
  cases startup with
  | false => exact ⟨by simp [Session.opened, Session.host, Session.made],
      fun _ => by simp [Session.opened, Session.host, Session.made]⟩
  | true =>
    simp only [Session.opened, Session.host, Session.made, Bool.not_true, Bool.false_eq_true,
      if_false]
    -- The one connection is there before the local player is created.
    generalize hstart : (Session.mk _ _ _ _ _ _ _ _ : Session σ) = s₀
    generalize (Session.readCreateLocalNetPlayer _) = fields
    have hwithin := Session.within_createLocalNetPlayer H s₀ fields.1 fields.2
    refine ⟨?_, ?_⟩
    · intro connection hmem
      have hself := hwithin.connections hmem
      rw [← hstart] at hself
      rw [List.mem_singleton.1 hself]
    · intro hactive
      rw [(hwithin.settings hactive).2, ← hstart]

theorem Inv.start : Inv H (hosted H process port startup) := by
  rcases opened_host H process port startup with ⟨hconnections, hsettings⟩
  refine ⟨?_, ?_, ?_⟩
  · intro hactive
    have hsame := hsettings hactive
    simp only [hosted, hsame]
    exact List.mem_cons_of_mem _ List.mem_cons_self
  · intro a s hs
    cases hs
  · intro a hown _
    refine ⟨behind_nil, ?_⟩
    intro connection hmem haddr
    -- The host's own connection is at an address of its own.
    have hbound := hconnections connection hmem
    exact absurd (haddr.symm.trans hbound ▸ List.mem_cons_self) hown

end Start

/-! ## The host's acts -/

section Host

variable {H : Engine σ} {E : SystemAddress → Engine σ} {p : Party σ}

theorem reliableOrderedTo_of_ne {sent : List PeerCall} {a : SystemAddress}
    (h : ∀ send, PeerCall.send send ∈ sent → send.address ≠ a) :
    Server.reliableOrderedTo a sent = [] := by
  rw [Server.reliableOrderedTo, List.filterMap_eq_nil_iff]
  intro call hcall
  cases call with
  | send send => simp [h send hcall]
  | _ => rfl

/-- A step within reach of the host keeps every gate: nothing is sent to an address that has no
connection, and where there is one, an assignment is on its way. -/
theorem Inv.gated_of_within (h : Inv H p) {s : Session σ} (hwithin : Session.Within H p.host s)
    {a : SystemAddress} (hown : a ∉ p.own) (hw : p.Waits a) :
    Gated { p with
      host := s
      inFlight := fun b => p.inFlight b ++
        Server.reliableOrderedTo b (s.calls.drop p.host.calls.length) } a := by
  have hgated := h.gated a hown hw
  rcases hwithin.calls with ⟨sent, hcalls, hreach⟩
  have hdrop : s.calls.drop p.host.calls.length = sent := by
    rw [hcalls, List.drop_left]
  -- Either an assignment is ahead of whatever is sent, or nothing is sent.
  by_cases hconnected : ∃ connection ∈ p.host.network.connections, connection.address = a
  · rcases hconnected with ⟨connection, hmem, haddr⟩
    have hassigned := hgated.assigned connection hmem haddr
    refine ⟨hgated.inOrder.append hassigned _, ?_⟩
    intro _ _ _
    rcases hassigned with ⟨data, hdata, hassigns⟩
    exact ⟨data, List.mem_append_left _ hdata, hassigns⟩
  · have hnone : Server.reliableOrderedTo a (s.calls.drop p.host.calls.length) = [] := by
      rw [hdrop]
      apply reliableOrderedTo_of_ne
      rintro send hsend rfl
      rcases hreach send hsend with ⟨hactive, hthere | hself⟩
      · exact hconnected hthere
      · exact hown (hself ▸ h.address hactive)
    refine ⟨?_, ?_⟩
    · simpa only [hnone, List.append_nil] using hgated.inOrder
    · intro connection hmem haddr
      exact absurd ⟨connection, hwithin.connections hmem, haddr⟩ hconnected

/-- The host answers a notification with an assignment, if its hero has a creature. -/
theorem notified {packet : Packet} {rounds : Nat} {s s' : Session σ}
    (hactive : s.network.active = true) (hkind : packet.kind = .connectionNotification)
    (hstep : s.step H (.packet packet rounds) = .ok s') :
    ∃ networkId, s'.network = { s.network with
        connections := s.network.connections ++
          [{ address := packet.systemAddress, networkId := networkId }] } ∧
      (s'.calls = s.calls ∧ (∃ hero, s.localNetPlayer = some hero ∧
          s.getCreatureFromLocalId H hero.localId = none) ∨
        ∃ position, s'.calls = s.calls ++
          [(Message.createLocalNetPlayer networkId position).sendTo packet.systemAddress]) := by
  let networkId := Session.getFreeNetworkId s.network.connections
  let connections := s.network.connections ++
    [{ address := packet.systemAddress, networkId := networkId }]
  let joined : Session σ := { s with network := { s.network with connections := connections } }
  have hreceived : joined.connectionNotification H networkId packet.systemAddress = .ok s' := by
    rw [← hstep]
    simp only [Session.step, Session.update, hactive, hkind, Bool.not_true, Bool.false_eq_true,
      if_false]
    rfl
  refine ⟨networkId, ?_⟩
  cases hlocal : joined.localNetPlayer with
  -- Without a local player the host does not survive the notification.
  | none =>
    simp only [Session.connectionNotification, hlocal] at hreceived
    cases hreceived
  | some hero =>
    cases hcreature : joined.getCreatureFromLocalId H hero.localId with
    -- The early return: the connection stays, and nobody is told.
    | none =>
      simp only [Session.connectionNotification, hlocal, hcreature] at hreceived
      obtain rfl := Except.ok.inj hreceived
      exact ⟨rfl, Or.inl ⟨rfl, hero, rfl, hcreature⟩⟩
    | some creature =>
      rcases Session.connectionNotification_host (s := joined) hactive hlocal hcreature networkId
        packet.systemAddress with ⟨s'', hok, hsends⟩
      obtain rfl := Except.ok.inj (hreceived.symm.trans hok)
      exact ⟨hsends.network, Or.inr ⟨_, hsends.calls⟩⟩

theorem assigns_createLocalNetPlayer (networkId : Int32) (position : Vec3) :
    Assigns (Message.createLocalNetPlayer networkId position).bytes :=
  Message.head?_bytes _

/-- The new connection's assignment is the first thing on its way. -/
theorem Inv.gated_of_notified (h : Inv H p) {packet : Packet} {rounds : Nat} {s : Session σ}
    (hactive : p.host.network.active = true) (hkind : packet.kind = .connectionNotification)
    (hpresent : HeroPresent H E p (.host (.packet packet rounds)))
    (hstep : p.host.step H (.packet packet rounds) = .ok s) {a : SystemAddress}
    (hown : a ∉ p.own) (hw : p.Waits a) :
    Gated { p with
      host := s
      inFlight := fun b => p.inFlight b ++
        Server.reliableOrderedTo b (s.calls.drop p.host.calls.length) } a := by
  have hgated := h.gated a hown hw
  rcases notified hactive hkind hstep with ⟨networkId, hnetwork, hanswer⟩
  by_cases ha : packet.systemAddress = a
  · subst ha
    rcases hanswer with ⟨_, hero, hlocal, hmissing⟩ | ⟨position, hcalls⟩
    · -- The host's creature is not missing.
      have hsome := hpresent hkind hactive hw hero hlocal
      rw [hmissing] at hsome
      cases hsome
    · let message := Message.createLocalNetPlayer networkId position
      have hsent : Server.reliableOrderedTo packet.systemAddress
          (s.calls.drop p.host.calls.length) = [message.bytes] := by
        rw [hcalls, List.drop_left]
        simp [Server.reliableOrderedTo, Message.sendTo, Message.reliability, message]
      refine ⟨?_, ?_⟩
      · simp only [hsent]
        refine hgated.inOrder.snoc ?_
        simp [Presumes, kindOf, message, Message.head?_bytes, Message.kind]
      · intro _ _ _
        refine ⟨message.bytes, ?_, assigns_createLocalNetPlayer networkId position⟩
        simp only [hsent]
        exact List.mem_append_right _ (List.mem_singleton_self _)
  · -- Nobody else's messages or connections have changed.
    have hsent : Server.reliableOrderedTo a (s.calls.drop p.host.calls.length) = [] := by
      rcases hanswer with ⟨hcalls, _⟩ | ⟨position, hcalls⟩
      · simp [hcalls, Server.reliableOrderedTo]
      · rw [hcalls, List.drop_left]
        simp [Server.reliableOrderedTo, Message.sendTo, ha]
    refine ⟨by simpa only [hsent, List.append_nil] using hgated.inOrder, ?_⟩
    intro connection hmem haddr
    rw [hnetwork] at hmem
    simp only [hsent, List.append_nil]
    rcases List.mem_append.1 hmem with hmem | hmem
    · exact hgated.assigned connection hmem haddr
    · rw [List.mem_singleton.1 hmem] at haddr
      exact absurd haddr ha

/-- Every act of the host keeps the invariant. -/
theorem Inv.host (h : Inv H p) {event : SessionEvent σ}
    (hpresent : HeroPresent H E p (.host event)) :
    Inv H (p.step H E (.host event)).1 := by
  simp only [step]
  split
  · rename_i hgets
    cases hstep : p.host.step H event with
    | error fault => exact h
    | ok s =>
      -- A notification makes a connection; everything else is within reach.
      by_cases hnotified : ∃ packet rounds, event = .packet packet rounds ∧
          packet.kind = .connectionNotification ∧ p.host.network.active = true
      · rcases hnotified with ⟨packet, rounds, rfl, hkind, hactive⟩
        rcases notified hactive hkind hstep with ⟨networkId, hnetwork, _⟩
        refine ⟨?_, h.clients, ?_⟩
        · intro _
          simpa only [hnetwork] using h.address hactive
        · intro a hown hw
          exact h.gated_of_notified hactive hkind hpresent hstep hown hw
      · have hwithin : Session.Within H p.host s := by
          -- A closed peer is handed nothing.
          cases hactive : p.host.network.active with
          | false =>
            cases event with
            | packet packet rounds =>
              simp only [Session.step, Session.update, hactive] at hstep
              cases hstep
              exact Session.Within.refl H _
            | _ => exact Session.within_step (by rintro _ _ ⟨⟩) hstep
          | true =>
            refine Session.within_step ?_ hstep
            rintro packet rounds rfl (hkind | hkind)
            · exact hnotified ⟨packet, rounds, rfl, hkind, hactive⟩
            · simp [hostGets, hkind] at hgets
        refine ⟨?_, h.clients, ?_⟩
        · intro hactive
          rcases hwithin.settings hactive with ⟨hbefore, hsame⟩
          simpa only [hsame] using h.address hbefore
        · intro a hown hw
          exact h.gated_of_within hwithin hown hw
  · exact h

end Host

/-! ## The clients' acts -/

section Client

variable {H : Engine σ} {E : SystemAddress → Engine σ} {p : Party σ} {a : SystemAddress}
  {s s' : Session σ} {event : SessionEvent σ} {rest : List (List UInt8)}

/-- The packet that a waiting client gets is one that it survives. -/
theorem Inv.tolerable (h : Inv H p) (hs : p.clients a = some s) (hw : s.Waiting)
    (hgets : p.clientGets a event = some rest) :
    ∀ packet rounds, event = .packet packet rounds → Session.Tolerable packet := by
  rintro packet rounds rfl
  have hwaits : p.Waits a := by
    intro t ht
    obtain rfl := Option.some.inj (hs.symm.trans ht)
    exact hw
  have hgated := h.gated a (h.clients a s hs).1 hwaits
  simp only [clientGets] at hgets
  split at hgets
  · rename_i hloose
    exact hloose.tolerable
  · -- The ordered message is the head of the queue, and nothing is before it.
    split at hgets
    · cases hgets
    · rename_i data rest' hflight
      split at hgets
      · rename_i hdata
        have hinOrder := hgated.inOrder
        rw [hflight, ← hdata] at hinOrder
        exact tolerable_of_not_presumes hinOrder.head
      · cases hgets

theorem Inv.safe (hneg : ∀ a e, (E a).getPlayer e (-1) = none) (h : Inv H p)
    (hs : p.clients a = some s) (hgets : p.clientGets a event = some rest) :
    Session.Safe (s.step (E a) event) ∧
      ∀ s', s.step (E a) event = .ok s' → s'.ClientInv :=
  (h.clients a s hs).2.step (hneg a) fun hw => h.tolerable hs hw hgets

/-- A client that has its creature gets its local player with the assignment. -/
theorem isSome_of_assigned {E : Engine σ} {packet : Packet} {rounds : Nat}
    (hactive : s.network.active = true) (hkind : packet.kind = .createLocalNetPlayer)
    (hcreature : (s.getCreatureFromLocalId E s.getFreeLocalId).isSome = true)
    (hstep : s.step E (.packet packet rounds) = .ok s') :
    s'.localNetPlayer.isSome = true := by
  simp only [Session.step, Session.update, hactive, hkind, Session.handleCreateLocalNetPlayer,
    Bool.not_true, Bool.false_eq_true, if_false] at hstep
  generalize hstart : (Session.mk _ _ _ _ _ _ _ _ : Session σ) = s₀ at hstep
  cases hstep
  -- The new address of `self` is nothing to the lookup.
  have hsame : s₀.getCreatureFromLocalId E s₀.getFreeLocalId =
      s.getCreatureFromLocalId E s.getFreeLocalId := by
    rw [← hstart]
    rfl
  rcases Session.createLocalNetPlayer_cases E s₀
    (Session.readCreateLocalNetPlayer (Session.payload packet)).1
    (Session.readCreateLocalNetPlayer (Session.payload packet)).2 with
    ⟨hmissing, _⟩ | ⟨_, hset, _⟩
  · rw [hsame] at hmissing
    rw [hmissing] at hcreature
    cases hcreature
  · rw [hset.localNetPlayer]
    rfl

/-- What is left for a client that still waits is as it was, or what has been taken from it did not
assign anything. -/
theorem gated_rest (hgated : p.Gated a) (hs : p.clients a = some s)
    (hpresent : HeroPresent H E p (.client a event)) (hgets : p.clientGets a event = some rest)
    (hstep : s.step (E a) event = .ok s') (hw : s'.Waiting) :
    InOrder rest ∧ ∀ connection ∈ p.host.network.connections, connection.address = a →
      ∃ data ∈ rest, Assigns data := by
  cases event with
  | packet packet rounds =>
    simp only [clientGets] at hgets
    split at hgets
    · cases hgets
      exact ⟨hgated.inOrder, hgated.assigned⟩
    · split at hgets
      · cases hgets
      · rename_i data rest' hflight
        split at hgets
        · rename_i hdata
          cases hgets
          -- A client that has taken its assignment waits no longer.
          have hother : ¬ Assigns data := by
            intro hassigns
            have hkind : packet.kind = .createLocalNetPlayer := by
              rw [Assigns, ← hdata, kindOf_packet] at hassigns
              exact Option.some.inj hassigns
            have hbefore := Session.waiting_of_step hstep hw
            have hsome := isSome_of_assigned hbefore.1 hkind
              (hpresent hkind s hs hbefore) hstep
            rw [hw.2] at hsome
            cases hsome
          have hinOrder := hgated.inOrder
          rw [hflight] at hinOrder
          refine ⟨hinOrder.tail hother, ?_⟩
          intro connection hmem haddr
          rcases hgated.assigned connection hmem haddr with ⟨found, hfound, hassigns⟩
          rw [hflight] at hfound
          rcases List.mem_cons.1 hfound with rfl | hfound
          · exact absurd hassigns hother
          · exact ⟨found, hfound, hassigns⟩
        · cases hgets
  | _ =>
    cases hgets
    exact ⟨hgated.inOrder, hgated.assigned⟩

/-- Every act of a client keeps the invariant. -/
theorem Inv.client (hneg : ∀ a e, (E a).getPlayer e (-1) = none) (h : Inv H p)
    (hpresent : HeroPresent H E p (.client a event)) :
    Inv H (p.step H E (.client a event)).1 := by
  simp only [step]
  split
  · rename_i s rest hs hgets
    cases hstep : s.step (E a) event with
    | error fault => exact h
    | ok s' =>
      refine ⟨h.address, ?_, ?_⟩
      · intro b t ht
        rcases World.client_cases ht with ⟨rfl, rfl⟩ | hold
        · exact ⟨(h.clients b s hs).1, (h.safe hneg hs hgets).2 t hstep⟩
        · exact h.clients b t hold
      · intro b hown hw
        -- The other clients' queues and sessions are as they were.
        by_cases hb : b = a
        · subst hb
          have hwaiting := hw s' (Function.update_self _ _ _)
          have hwaits : p.Waits b := by
            intro t ht
            obtain rfl := Option.some.inj (hs.symm.trans ht)
            exact Session.waiting_of_step hstep hwaiting
          rcases gated_rest (h.gated b hown hwaits) hs hpresent hgets hstep hwaiting with
            ⟨hinOrder, hassigned⟩
          refine ⟨?_, ?_⟩
          · simpa only [Function.update_self] using hinOrder
          · simpa only [Function.update_self] using hassigned
        · have hwaits : p.Waits b := by
            intro t ht
            exact hw t ((Function.update_of_ne hb _ _).trans ht)
          have hgated := h.gated b hown hwaits
          refine ⟨?_, ?_⟩
          · simpa only [Function.update_of_ne hb] using hgated.inOrder
          · simpa only [Function.update_of_ne hb] using hgated.assigned
  · exact h

/-- A client that has just connected is behind the gate that was there before. -/
theorem Inv.connect (h : Inv H p) (process : Process σ) (ip : String) (port : UInt16)
    (startup connected : Bool) :
    Inv H (p.step H E (.connect a process ip port startup connected)).1 := by
  simp only [step]
  split
  · exact h
  · rename_i hfree
    have hown : a ∉ p.own := fun hmem => hfree (Or.inl hmem)
    have hnobody : p.clients a = none := by
      cases hclient : p.clients a with
      | none => rfl
      | some s => exact absurd (Or.inr (by simp [hclient])) hfree
    refine ⟨h.address, ?_, ?_⟩
    · intro b s hs
      rcases World.client_cases hs with ⟨rfl, rfl⟩ | hold
      · exact ⟨hown, Session.clientInv_opened (E b) process ip port startup connected⟩
      · exact h.clients b s hold
    · -- Nobody was at the address, so its gate is the one of an address that waits.
      intro b hb hw
      have hgated : p.Gated b := by
        refine h.gated b hb ?_
        intro s hs
        have hne : b ≠ a := by
          rintro rfl
          rw [hnobody] at hs
          cases hs
        exact hw s ((Function.update_of_ne hne _ _).trans hs)
      exact ⟨hgated.inOrder, hgated.assigned⟩

end Client

/-! ## Runs -/

section Runs

variable {H : Engine σ} {E : SystemAddress → Engine σ} {p : Party σ}

theorem Inv.step (hneg : ∀ a e, (E a).getPlayer e (-1) = none) (h : Inv H p) {act : Act σ}
    (hpresent : HeroPresent H E p act) : Inv H (p.step H E act).1 := by
  cases act with
  | host event => exact h.host hpresent
  | connect a process ip port startup connected => exact h.connect process ip port startup connected
  | client a event => exact h.client hneg hpresent

/-- With the invariant in place the next act is safe. -/
theorem Inv.neverNull (hneg : ∀ a e, (E a).getPlayer e (-1) = none) (h : Inv H p) {act : Act σ}
    (hpresent : HeroPresent H E p act) : NeverNull H E p act := by
  cases act with
  | host event =>
    intro a s hs hw
    -- Whatever the host sends, the queues are in order behind it.
    have hafter := h.host hpresent
    have hclients : (p.step H E (.host event)).1.clients = p.clients ∧
        (p.step H E (.host event)).1.own = p.own := by
      simp only [Party.step]
      split
      · split <;> exact ⟨rfl, rfl⟩
      · exact ⟨rfl, rfl⟩
    refine (hafter.gated a ?_ ?_).inOrder
    · rw [hclients.2]
      exact (h.clients a s hs).1
    · intro t ht
      rw [hclients.1] at ht
      obtain rfl := Option.some.inj (hs.symm.trans ht)
      exact hw
  | connect a process ip port startup connected => trivial
  | client a event =>
    intro s hs hgets
    rcases Option.isSome_iff_exists.1 hgets with ⟨rest, hrest⟩
    refine ⟨(h.safe hneg hs hrest).1, ?_⟩
    intro hw packet rounds heq
    exact (h.tolerable hs hw hrest packet rounds heq).2

/-- As long as the heroes are there, no client follows a null `localNetPlayer`. -/
theorem never_null_of_heroPresent (H : Engine σ) (E : SystemAddress → Engine σ)
    (hneg : ∀ a e, (E a).getPlayer e (-1) = none) (process : Process σ) (port : UInt16)
    (startup : Bool) (acts : List (Act σ))
    (hpresent : (party H E).StepsSatisfy (HeroPresent H E) (hosted H process port startup) acts) :
    (party H E).StepsSatisfy (NeverNull H E) (hosted H process port startup) acts := by
  intro before act after hsplit
  have hbefore : (party H E).StepsSatisfy (HeroPresent H E) (hosted H process port startup)
      before := by
    rw [hsplit] at hpresent
    exact (every_append.1 hpresent).1
  -- The invariant holds where the run has come to when the act is taken.
  have hinv := Machine.run_invariant_of (M := party H E) (I := fun _ p _ => Inv H p)
    (Inv.start H process port startup)
    (fun _ _ _ _ h hhero => h.step hneg hhero) before hbefore
  exact hinv.neverNull hneg (hpresent before act after hsplit)

end Runs

/-! ## A client that joins, and one that joins behind the host's back -/

/-- The game of the host and of its clients; a hero is there as long as local id 0 is. -/
abbrev heroGame : Engine Engine.Table :=
  Engine.table Session.exampleAddress

def hostedParty : Party Engine.Table :=
  hosted heroGame Session.hostProcess 60000 true

/-- The address of the client that binds a port. -/
abbrev guest (port : UInt16) : SystemAddress :=
  Session.exampleAddress "" port

def packetFrom (address : SystemAddress) (messageId : UInt8) (body : List UInt8) : Packet where
  systemAddress := address
  guid := 0
  data := messageId :: body
  nonempty := List.cons_ne_nil messageId body

/-- A client with its hero connects to the host, whose peer accepts, and announces itself. -/
def joins (port : UInt16) : List (Act Engine.Table) :=
  [.connect (guest port) { engine := [(0, 1000)], boundAddress := guest port } "127.0.0.1" 60000
      true true,
    .client (guest port) (.packet (packetFrom (guest 60000) 16 []) 0),
    .host (.packet (packetFrom (guest port) idConnectionNotification []) 0)]

/-- The host's assignment of an id to a client that joins when everybody stands at the origin. -/
def assignment (id : UInt8) : Packet :=
  packetFrom (guest 60000) idCreateLocalNetPlayer ([0, 0, 0, id] ++ List.replicate 12 0)

theorem never_null_of_heroPresent_joins :
    (party heroGame fun _ => heroGame).StepsSatisfy (NeverNull heroGame fun _ => heroGame)
      hostedParty (joins 50001 ++ [.client (guest 50001) (.packet (assignment 1) 0)]) := by
  refine never_null_of_heroPresent heroGame (fun _ => heroGame) (fun _ _ => rfl)
    Session.hostProcess 60000 true _ ?_
  simp only [joins, List.cons_append, List.nil_append, Machine.stepsSatisfy_cons]
  refine ⟨trivial, ?_, ?_, ?_, Machine.stepsSatisfy_nil _ _ _⟩
  · intro hkind
    exact absurd hkind (by decide)
  · intro _ _ _ hero hhero
    cases hhero
    decide +kernel
  · intro _ s hs _
    cases hs
    decide +kernel

/-- The announcement of the client with id 2. -/
def spawnMessage : List UInt8 :=
  [0, 0, 0, 2] ++ [0, 0, 3, 232] ++ List.replicate 12 0

/-- The host's creature is away while the first client announces itself, and back when the second
one does; the second one gets its assignment and spawns. -/
def absentActs : List (Act Engine.Table) :=
  [.host (.game [])] ++ joins 50001 ++ [.host (.game [(0, 1000)])] ++ joins 50002 ++
    [.client (guest 50002) (.packet (assignment 2) 0),
      .client (guest 50002) .updateRegionLoad,
      .host (.packet (packetFrom (guest 50002) idCreateNetPlayer spawnMessage) 0)]

def absentParty : Party Engine.Table :=
  (party heroGame fun _ => heroGame).state hostedParty absentActs

/-- What the host tells the first client about the second one. -/
def announcement : SessionEvent Engine.Table :=
  .packet (packetFrom (guest 60000) idCreateNetPlayer spawnMessage) 0

/-- The fault that ends a step. -/
def faultOf : Except Fault (Session σ) → Option Fault
  | .error fault => some fault
  | .ok _ => none

/-- The host announces the second client to the first one, which it has never assigned an id. -/
theorem absent_hero_leaves_null :
    ¬ (party heroGame fun _ => heroGame).StepsSatisfy (NeverNull heroGame fun _ => heroGame)
      hostedParty (absentActs ++ [.client (guest 50001) announcement]) := by
  intro hall
  have hlast : NeverNull heroGame (fun _ => heroGame) absentParty
      (.client (guest 50001) announcement) := ((Machine.stepsSatisfy_snoc _).1 hall).2
  have hgets : (absentParty.clientGets (guest 50001) announcement).isSome = true := by
    decide +kernel
  have hfault : ((absentParty.clients (guest 50001)).map fun s =>
      faultOf (s.step heroGame announcement)) = some (some .nullLocalNetPlayer) := by
    decide +kernel
  -- The first client is there, gets the announcement and fails on it.
  rcases Option.map_eq_some_iff.1 hfault with ⟨s, hs, hstep⟩
  have hsafe := (hlast s hs hgets).1
  cases hresult : s.step heroGame announcement with
  | ok s' =>
    rw [hresult] at hstep
    cases hstep
  | error fault =>
    rw [hresult] at hstep hsafe
    exact hsafe (congrArg Except.error (Option.some.inj hstep))

end Party
end Crossover
