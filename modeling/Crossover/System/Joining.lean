import Crossover.Server.Anchor
import Crossover.System.Agreement

/-!
# Joining — the way into the world

A client that has opened its session and a server that has room need nobody else: the client asks,
the server enrols it and sends its assignment, the game loads the region, the client announces its
hero and the server takes it up.  Each of these is one calm step, so what calm steps keep holds at
the end as well.
-/

namespace Crossover

open Wire

/-! ## The client's part -/

namespace Mod

variable {σ : Type}

/-- Every region load can come to its end without costing anybody a creature. -/
def Engine.Loads (E : Engine σ) (Holds : σ → Int → Int32 → Prop) : Prop :=
  ∀ e, ∃ e', (∀ i d, Holds e i d → Holds e' i d) ∧ E.regionLoadStatus e' = .notLoadingRegion

theorem Engine.table_loads (systemAddress : String → UInt16 → SystemAddress) :
    (Engine.table systemAddress).Loads Engine.Table.Holds :=
  fun e => ⟨e, fun _ _ h => h, rfl⟩

theorem CallbackMap.mem_assign_self {α : Type} (key : String) (value : α)
    (callbacks : CallbackMap α) : (key, value) ∈ callbacks.assign key value := by
  induction callbacks with
  | nil => exact List.mem_singleton_self _
  | cons entry rest ih =>
    simp only [CallbackMap.assign]
    split
    · exact List.mem_cons_self
    · split
      · exact List.mem_cons_self
      · exact List.mem_cons_of_mem _ ih

namespace Session

variable {E : Engine σ} {Holds : σ → Int → Int32 → Prop} {s s' : Session σ}

/-- The assignment leaves the closure that will announce the hero. -/
theorem Ready.registers (hE : E.Lawful Holds) (h : s.Ready Holds) {address : SystemAddress}
    {networkId d : Int32} {position : Vec3} (hid : networkId ≠ 0) (hhero : Holds s.engine 0 d)
    (hok : s.receive E address (.createLocalNetPlayer networkId position) = .ok s') :
    (regionLoadKey, ⟨networkId, d, position⟩) ∈ s'.updateRegionLoadCallbacks := by
  rcases hE.lookup _ _ _ hhero with ⟨player, creature, hplayer, hcreature, hdef⟩
  have hzero : s.getFreeLocalId = 0 := by
    simp [getFreeLocalId, localIds, h.netPlayers, h.localNetPlayer, FirstFree.search]
  let self : Connection := { address := s.network.boundAddress, networkId := networkId }
  let started : Session σ :=
    { s with
      network := { s.network with self := self }
      localNetPlayer := some { networkId := networkId, localId := 0 } }
  let moving := (started.broadcastLocalNetPlayerMovement E
    networkId).broadcastLocalNetPlayerRotation E networkId
  have hquiet : Quiet started moving :=
    (quiet_broadcastLocalNetPlayerMovement E started networkId).trans
      (quiet_broadcastLocalNetPlayerRotation E _ networkId)
  have hs' : s' = moving.teleportLocalNetPlayerToHost E networkId position := by
    have hfree : ({ s with network := { s.network with self := self } } : Session σ).getFreeLocalId
        = 0 := hzero
    have hfound : ({ s with network := { s.network with self := self } } :
        Session σ).getCreatureFromLocalId E 0 = some creature := by
      simp [getCreatureFromLocalId, hplayer, hcreature]
    simp only [receive, createLocalNetPlayer, hfree, hfound, ne_eq, hid, not_false_eq_true, if_true,
      self] at hok
    exact (Except.ok.inj hok).symm
  -- The local player is asked for first, so its creature is the hero's.
  have hown : moving.getCreatureFromNetworkId E networkId = some creature := by
    simp [getCreatureFromNetworkId, getLocalIdFromNetworkId, getCreatureFromLocalId,
      hquiet.localNetPlayer, hquiet.engine, started, hplayer, hcreature]
  have hnamed : E.defGlobalIndex moving.engine creature = d := by
    rw [hquiet.engine]
    exact hdef
  rw [hs', teleportLocalNetPlayerToHost, hown]
  simp only [hnamed]
  exact CallbackMap.mem_assign_self _ _ _

/-- Closures add to the calls. -/
theorem calls_runRegionLoadCallback (E : Engine σ) (s : Session σ) (callback : RegionLoadCallback)
    {call : PeerCall} (h : call ∈ s.calls) : call ∈ (s.runRegionLoadCallback E callback).calls := by
  simp only [runRegionLoadCallback]
  split
  · exact h
  · rcases spoke_sendToHost E
      { s with updateRegionLoadCallbacks := s.updateRegionLoadCallbacks.erase regionLoadKey }
      (createNetPlayerMessage callback.networkId callback.defGlobalIndex callback.position)
      .reliableOrdered with ⟨sent, hsent⟩
    rw [hsent]
    exact List.mem_append_left _ h

theorem calls_foldl_region (E : Engine σ) (entries : CallbackMap RegionLoadCallback)
    (s : Session σ) {call : PeerCall} (h : call ∈ s.calls) :
    call ∈ (entries.foldl (fun s entry => s.runRegionLoadCallback E entry.2) s).calls := by
  induction entries generalizing s with
  | nil => exact h
  | cons entry rest ih => exact ih _ (calls_runRegionLoadCallback E s entry.2 h)

theorem quiet_foldl_region (E : Engine σ) (entries : CallbackMap RegionLoadCallback)
    (s : Session σ) :
    Quiet s (entries.foldl (fun s entry => s.runRegionLoadCallback E entry.2) s) := by
  induction entries generalizing s with
  | nil => exact Quiet.refl s
  | cons entry rest ih => exact (quiet_runRegionLoadCallback E s entry.2).trans (ih _)

/-- The hook runs every closure, and at the end of the region load each of them sends. -/
theorem updateRegionLoad_announces (hactive : s.network.active = true)
    (hcomplete : E.regionLoadStatus s.engine = .notLoadingRegion)
    {entry : String × RegionLoadCallback} (hentry : entry ∈ s.updateRegionLoadCallbacks) :
    ∃ send, PeerCall.send send ∈ (s.updateRegionLoad E).calls ∧
      send.data = (Message.createNetPlayer entry.2.networkId entry.2.defGlobalIndex
        entry.2.position).bytes := by
  rcases List.append_of_mem hentry with ⟨before, after, hsplit⟩
  rw [updateRegionLoad, hsplit, List.foldl_append, List.foldl_cons]
  have hquiet := quiet_foldl_region E before s
  generalize before.foldl (fun s entry => s.runRegionLoadCallback E entry.2) s = t at hquiet ⊢
  let send : Send :=
    { data := (createNetPlayerMessage entry.2.networkId entry.2.defGlobalIndex
        entry.2.position).data
      priority := .high
      reliability := .reliableOrdered
      address := E.systemAddress t.network.settings.ip t.network.settings.port }
  refine ⟨send, calls_foldl_region E after _ ?_, ?_⟩
  · have hopen : t.network.active = true := by rw [hquiet.network, hactive]
    have hloaded : E.regionLoadStatus t.engine = .notLoadingRegion := by
      rw [hquiet.engine, hcomplete]
    simp [runRegionLoadCallback, hloaded, sendToHost, peerSend, hopen, send]
  · simp [send, createNetPlayerMessage, Message.bytes]

end Session
end Mod

/-! ## The server's part -/

namespace Server

variable {s : RelayServer} {packet : Packet} {a : SystemAddress}

theorem updateByAddress_snoc {before : List Player} {p : Player}
    (h : ∀ q ∈ before, q.address ≠ p.address) (f : Player → Player) :
    updateByAddress p.address f (before ++ [p]) = before ++ [f p] := by
  induction before with
  | nil => simp [updateByAddress]
  | cons q rest ih =>
    have hq := h q List.mem_cons_self
    have hrest := ih fun r hr => h r (List.mem_cons_of_mem _ hr)
    simp [updateByAddress, hq, hrest]

theorem account_clock (p : Player) (nowMs : Int) :
    (RelayServer.account p nowMs).1.connectedAtMs = p.connectedAtMs ∧
      (RelayServer.account p nowMs).1.lastPacketMs = nowMs := by
  simp only [RelayServer.account, RelayServer.acceptRate, RelayServer.rollRateWindow]
  split <;> split <;> exact ⟨rfl, rfl⟩

/-- A stranger is enrolled at the end of the table. -/
theorem step_enrols (hpeer : s.peer = true)
    (hfind : findByAddress s.players packet.systemAddress = none)
    (hroom : ¬ Int32.ofNat s.players.length ≥ s.config.maxPlayers)
    (hkind : packet.kind = .connectionNotification) (tickMs handlerMs : Int) :
    step s (.packet packet tickMs handlerMs) =
      ({ s with players := s.players ++ [newPlayer s packet handlerMs] },
        [Message.sendTo (.createLocalNetPlayer (allocateNetworkId s.players) s.spawnPositionFor)
          packet.systemAddress]) := by
  -- The newcomer has not spawned, so it is not the anchor.
  have hanchor : anchorPlayer (s.players ++ [newPlayer s packet handlerMs]) =
      anchorPlayer s.players := by
    rw [anchorPlayer_snoc]
    rfl
  simp only [step, hpeer, Bool.not_true, Bool.false_eq_true, if_false, RelayServer.tickPacket,
    bookkeep_of_stranger hfind tickMs, if_true, RelayServer.dispatch, hkind,
    handleConnectionNotification_join hfind hroom, RelayServer.spawnPositionFor, hanchor]

/-- The last player announces itself. -/
theorem step_spawns (hpeer : s.peer = true) {before : List Player} {p : Player}
    (hplayers : s.players = before ++ [p]) (hbefore : ∀ q ∈ before, q.address ≠ p.address)
    (hfrom : packet.systemAddress = p.address) {networkId defGlobalIndex : Int32} {position : Vec3}
    (hdata : packet.data = (Message.createNetPlayer networkId defGlobalIndex position).bytes)
    {tickMs : Int} (hadmits : RateAdmits p tickMs) (handlerMs : Int) :
    (step s (.packet packet tickMs handlerMs)).1 =
      { s with
        players := before ++
          [(RelayServer.account p tickMs).1.spawnAs defGlobalIndex position] } := by
  have hlast : ∀ q : Player, q.address = p.address →
      findByAddress (before ++ [q]) p.address = some q := by
    intro q hq
    have hnone : findByAddress before p.address = none := findByAddress_eq_none.2 hbefore
    rw [findByAddress, List.find?_append, ← findByAddress, hnone]
    simp [hq]
  have hfind : findByAddress s.players packet.systemAddress = some p := by
    rw [hplayers, hfrom]
    exact hlast p rfl
  have hbooked : s.bookkeep packet tickMs =
      ({ s with players := before ++ [(RelayServer.account p tickMs).1] }, true) := by
    rw [bookkeep_of_find hfind, hplayers, hfrom, updateByAddress_snoc hbefore,
      (account_accepts p tickMs).2 hadmits]
  have haddress := account_address p tickMs
  have hkind : packet.kind = .createNetPlayer := Packet.kind_of_bytes hdata
  have hlen : kSizeCreateNetPlayer ≤ packet.length := (Packet.length_of_bytes hdata).ge
  have hself : findByAddress (before ++ [(RelayServer.account p tickMs).1])
      packet.systemAddress = some (RelayServer.account p tickMs).1 := by
    rw [hfrom]
    exact hlast _ haddress
  simp only [step, hpeer, Bool.not_true, Bool.false_eq_true, if_false, RelayServer.tickPacket,
    hbooked, if_true, RelayServer.dispatch, hkind]
  rw [handleCreateNetPlayer_eq hlen hself]
  simp only [readCreateNetPlayer_of_bytes hdata, hfrom]
  rw [← haddress, updateByAddress_snoc]
  intro q hq
  rw [haddress]
  exact hbefore q hq

end Server

/-! ## The way in -/

namespace World

open Relation Server Crossover.Mod

variable {σ : Type} {E : SystemAddress → Engine σ} {isClient : SystemAddress → Prop}
  {Holds : σ → Int → Int32 → Prop} {config : Config} {a : SystemAddress} {w : World σ}

/-- The worlds differ in one client only, as far as clients go. -/
def Elsewhere (a : SystemAddress) (w w' : World σ) : Prop :=
  ∀ b, b ≠ a → w'.clients b = w.clients b

theorem elsewhere_update (a : SystemAddress) (w : World σ) (s : Session σ)
    (rest : List (List UInt8)) : Elsewhere a w
      { w with
        clients := Function.update w.clients a (some s)
        inFlight := Function.update w.inFlight a rest } :=
  fun _ hb => Function.update_of_ne hb _ _

/-- Nothing has come to a client that the server does not know, and it is ready to be assigned. -/
theorem Linked.waiting (h : Linked Holds config a w) (hfree : ¬ Seated w.server a) {s : Session σ}
    (hs : w.clients a = some s) : w.inFlight a = [] ∧ s.Ready Holds := by
  have hnone : orderedMessages a w.calls = [] := by
    rcases h.messages with hnone | ⟨p, hp, ha, _⟩
    · exact hnone
    · exact absurd ⟨p, hp, ha⟩ hfree
  have hsilent : reliableOrderedTo a w.calls = [] := by
    cases hdata : reliableOrderedTo a w.calls with
    | nil => rfl
    | cons data rest =>
      have hsplit : reliableOrderedTo a w.calls = [] ++ data :: rest := hdata
      rcases h.next hsplit with ⟨m, _, _, hmessages⟩
      rw [hnone] at hmessages
      cases hmessages
  rcases h.client with ⟨arrived, hsplit, _, hheeds⟩
  rcases List.append_eq_nil_iff.1 (hsplit.symm.trans hsilent) with ⟨rfl, hflight⟩
  refine ⟨hflight, ?_⟩
  rcases (hheeds s hs).2 with ⟨_, hready⟩ | ⟨hsome, _⟩
  · exact hready
  · exact absurd rfl hsome

/-- The server accepts the connection, and the client asks to join. -/
theorem asks (E : SystemAddress → Engine σ) (isClient : SystemAddress → Prop) {s : Session σ}
    (hs : w.clients a = some s) (hready : s.Ready Holds) :
    ∃ w' s', CalmStep E isClient Holds a w w' ∧ w'.server = w.server ∧
      w'.inFlight a = w.inFlight a ∧ Elsewhere a w w' ∧ w'.clients a = some s' ∧
      s'.Ready Holds ∧ s'.engine = s.engine ∧
      w'.FromClient (Session.packetFrom a .connectionNotification) := by
  let packet : Packet :=
    { systemAddress := a, guid := 0, data := [16], nonempty := List.cons_ne_nil _ _ }
  have hkind : packet.kind = .connectionRequestAccepted := rfl
  let s' := s.handleConnectionRequestAccepted packet
  have hok : s.step (E a) (.packet packet 0) = .ok s' := by
    simp only [Session.step, Session.update, hready.active, hkind]
    rfl
  have hquiet : Session.Quiet s s' := Session.quiet_peerSend s _ _ _ _
  have hsteady : s.Steady Holds (.packet packet 0) := by
    rw [Session.Steady, hkind]
    decide
  have htransport : Transport packet := by
    rw [Transport, hkind]
    decide
  refine ⟨_, s', calmStep_client hs (.transport htransport) hok hsteady, rfl, by simp,
    elsewhere_update a w s' _, Function.update_self .., hquiet.kept.ready hready, hquiet.engine,
    Or.inr ⟨s', Function.update_self .., ?_⟩⟩
  have hcalls : s'.calls = s.calls ++ [.send
      { data := Message.connectionNotification.bytes
        priority := .high
        reliability := .reliableOrdered
        address := a }] := by
    simp [s', Session.handleConnectionRequestAccepted, Session.peerSend, hready.active,
      Message.bytes, packet]
  exact ⟨_, by rw [hcalls]; exact List.mem_append_right _ (List.mem_singleton_self _), rfl⟩

/-- The server enrols the client and sends its assignment. -/
theorem enrols (E : SystemAddress → Engine σ) (isClient : SystemAddress → Prop)
    (Holds : σ → Int → Int32 → Prop) (hpeer : w.server.peer = true) (hfree : ¬ Seated w.server a)
    (hroom : ¬ Int32.ofNat w.server.players.length ≥ w.server.config.maxPlayers)
    (hfrom : w.FromClient (Session.packetFrom a .connectionNotification)) (clockMs : Int) :
    let packet := Session.packetFrom a .connectionNotification
    let w' := w.handled (.packet packet clockMs clockMs)
    CalmStep E isClient Holds a w w' ∧
      w'.server =
        { w.server with players := w.server.players ++ [newPlayer w.server packet clockMs] } ∧
      w'.inFlight a = w.inFlight a ++ [(Message.createLocalNetPlayer
        (allocateNetworkId w.server.players) w.server.spawnPositionFor).bytes] := by
  intro packet w'
  have hfind : findByAddress w.server.players packet.systemAddress = none :=
    findByAddress_eq_none.2 fun q hq ha => hfree ⟨q, hq, ha⟩
  have hkind : packet.kind = .connectionNotification :=
    Packet.kind_of_bytes (m := .connectionNotification) rfl
  have hstep := step_enrols hpeer hfind hroom hkind clockMs clockMs
  refine ⟨calmStep_packet (fun _ => hfrom) ?_ fun hseated => absurd hseated hfree, ?_, ?_⟩
  · rw [hfind]
    rfl
  · simp only [w', handled, hstep]
  · have hsent : reliableOrderedTo a [Message.sendTo (.createLocalNetPlayer
        (allocateNetworkId w.server.players) w.server.spawnPositionFor) a] =
        [(Message.createLocalNetPlayer (allocateNetworkId w.server.players)
          w.server.spawnPositionFor).bytes] := by
      simp [reliableOrderedTo, Message.sendTo, Message.reliability]
    simp only [w', handled, hstep]
    rw [← hsent]
    rfl

/-- The assignment arrives, the game loads the region, and the client announces its hero. -/
theorem announces (isClient : SystemAddress → Prop) (hE : (E a).Lawful Holds)
    (hloads : (E a).Loads Holds) {s : Session σ} (hs : w.clients a = some s)
    (hready : s.Ready Holds) {networkId d : Int32} {position : Vec3}
    (hid : networkId ≠ 0) (hhero : Holds s.engine 0 d)
    (hflight : w.inFlight a = [(Message.createLocalNetPlayer networkId position).bytes]) :
    ∃ w' s', ReflTransGen (CalmStep E isClient Holds a) w w' ∧ w'.server = w.server ∧
      Elsewhere a w w' ∧ w'.clients a = some s' ∧
      w'.FromClient (Session.packetFrom a (.createNetPlayer networkId d position)) := by
  let packet := Session.packetFrom a (.createLocalNetPlayer networkId position)
  have hkind : packet.kind = .createLocalNetPlayer :=
    Packet.kind_of_bytes (m := .createLocalNetPlayer networkId position) rfl
  rcases hready.assign hE a networkId position with ⟨s₁, hreceive, hfollows, hactive₁⟩
  have hentry := hready.registers hE hid hhero hreceive
  have hok₁ : s.step (E a) (.packet packet 0) = .ok s₁ := by
    have hdata : packet.data = (Message.createLocalNetPlayer networkId position).bytes := rfl
    rw [Session.step, Session.update_of_bytes (E a) 0 hready.active hdata trivial]
    exact hreceive
  have hsteady₁ : s.Steady Holds (.packet packet 0) := by
    rw [Session.Steady, hkind]
    decide
  let w₁ : World σ :=
    { w with
      clients := Function.update w.clients a (some s₁)
      inFlight := Function.update w.inFlight a [] }
  have hassigned : CalmStep E isClient Holds a w w₁ :=
    calmStep_client hs (.ordered hflight) hok₁ hsteady₁
  -- The game goes on until the region is there.
  rcases hloads s₁.engine with ⟨engine, hkept, hcomplete⟩
  let s₂ : Session σ := { s₁ with engine := engine }
  let w₂ : World σ :=
    { w₁ with
      clients := Function.update w₁.clients a (some s₂)
      inFlight := Function.update w₁.inFlight a (w₁.inFlight a) }
  have hloaded : CalmStep E isClient Holds a w₁ w₂ :=
    calmStep_client (Function.update_self ..) (.own fun packet rounds heq => by cases heq)
      (show s₁.step (E a) (.game engine) = .ok s₂ from rfl) hkept
  -- Then the hook's closure sends.
  rcases Session.updateRegionLoad_announces (s := s₂) hactive₁ hcomplete hentry with
    ⟨send, hsend, hdata⟩
  let s₃ := s₂.updateRegionLoad (E a)
  let w₃ : World σ :=
    { w₂ with
      clients := Function.update w₂.clients a (some s₃)
      inFlight := Function.update w₂.inFlight a (w₂.inFlight a) }
  have hannounced : CalmStep E isClient Holds a w₂ w₃ :=
    calmStep_client (Function.update_self ..) (.own fun packet rounds heq => by cases heq)
      (show s₂.step (E a) .updateRegionLoad = .ok s₃ from rfl) trivial
  refine ⟨w₃, s₃, .head hassigned (.head hloaded (.single hannounced)), rfl, ?_,
    Function.update_self .., Or.inr ⟨s₃, Function.update_self .., send, hsend, hdata⟩⟩
  intro b hb
  simp [w₃, w₂, w₁, hb]

/-- The server takes the hero of the last player up. -/
theorem spawns (E : SystemAddress → Engine σ) (isClient : SystemAddress → Prop)
    (Holds : σ → Int → Int32 → Prop) (hpeer : w.server.peer = true) {before : List Player}
    {p : Player} (hplayers : w.server.players = before ++ [p])
    (hbefore : ∀ q ∈ before, q.address ≠ a) (hp : p.address = a) (habsent : p.spawned = false)
    {clockMs : Int} (hadmits : RateAdmits p clockMs)
    {networkId d : Int32} {position : Vec3}
    (hfrom : w.FromClient (Session.packetFrom a (.createNetPlayer networkId d position))) :
    let packet := Session.packetFrom a (.createNetPlayer networkId d position)
    let w' := w.handled (.packet packet clockMs clockMs)
    CalmStep E isClient Holds a w w' ∧
      w'.server.players = before ++ [(RelayServer.account p clockMs).1.spawnAs d position] := by
  intro packet w'
  subst hp
  have hstep := step_spawns hpeer hplayers hbefore (show packet.systemAddress = p.address from rfl)
    (show packet.data = (Message.createNetPlayer networkId d position).bytes from rfl) hadmits
    clockMs
  have hplayers' : w'.server.players =
      before ++ [(RelayServer.account p clockMs).1.spawnAs d position] := by
    simp only [w', packet, handled, hstep]
  refine ⟨calmStep_packet (fun _ => hfrom) ?_ fun _ => ?_, hplayers'⟩
  · have hnone : findByAddress before p.address = none := findByAddress_eq_none.2 hbefore
    have hfind : findByAddress w.server.players p.address = some p := by
      rw [hplayers, findByAddress, List.find?_append, ← findByAddress, hnone]
      simp
    change (findByAddress w.server.players p.address).all (fun self => !self.spawned) = true
    simp [hfind, habsent]
  · refine ⟨_, hplayers' ▸ List.mem_append_right _ (List.mem_singleton_self _), ?_⟩
    exact account_address p clockMs

/-- The players that a newcomer at the end of the table is told of. -/
theorem recipients_snoc {before : List Player} {p : Player}
    (h : p.networkId ∉ before.map Player.networkId) :
    recipients (before ++ [p]) p.networkId = before.filter Player.spawned := by
  have hself : recipients [p] p.networkId = [] := by simp [recipients]
  have hothers : recipients before p.networkId = before.filter Player.spawned := by
    apply List.filter_congr
    intro q hq
    have hne : q.networkId ≠ p.networkId := fun heq => h (heq ▸ List.mem_map_of_mem hq)
    simp [hne]
  rw [recipients, List.filter_append, ← recipients, ← recipients, hself, hothers,
    List.append_nil]

/-- Whoever has opened a session gets in as long as the server has room, whatever has happened so
far and without anybody else's doing: it is enrolled behind the others under a free id, its hero
spawns where the server has sent it, and it shows exactly the players that were there. -/
theorem gets_in (E : SystemAddress → Engine σ) (isClient : SystemAddress → Prop)
    (config : Config) (nowMs : Int) (restored : Option Vec3) (Holds : σ → Int → Int32 → Prop)
    (a : SystemAddress) (hE : (E a).Lawful Holds) (hdisplays : (E a).Displays Holds)
    (hloads : (E a).Loads Holds) (w : World σ)
    (h : ReflTransGen (CalmStep E isClient Holds a) (begun config nowMs restored) w)
    (s : Session σ) (hs : w.clients a = some s) (hfree : ¬ Seated w.server a)
    (hroom : ¬ Int32.ofNat w.server.players.length ≥ w.server.config.maxPlayers) (clockMs : Int) :
    ∃ w' s' p, ReflTransGen (CalmStep E isClient Holds a) w w' ∧ Elsewhere a w w' ∧
      w'.clients a = some s' ∧ w'.inFlight a = [] ∧
      w'.server.players = w.server.players ++ [p] ∧ p.address = a ∧ p.spawned = true ∧
      p.connectedAtMs = clockMs ∧ p.lastPacketMs = clockMs ∧
      p.networkId = allocateNetworkId w.server.players ∧
      p.position = w.server.spawnPositionFor ∧ Holds s.engine 0 p.defGlobalIndex ∧
      (∃ own, s'.localNetPlayer = some own ∧ own.networkId = p.networkId) ∧
      (s'.definitionTable (E a)).Perm ((w.server.players.filter Player.spawned).map fun q =>
        (q.networkId, some q.defGlobalIndex)) := by
  have hlinked := linked hE hdisplays h
  have hinv := hlinked.channel.roster.inv.table
  have hpeer := hlinked.peer
  rcases hlinked.waiting hfree hs with ⟨hflight, hready⟩
  rcases hready.hero with ⟨d, hhero⟩
  rcases asks E isClient hs hready with
    ⟨w₁, s₁, hasks, hserver₁, hflight₁, helse₁, hs₁, hready₁, hengine, hfrom₁⟩
  rw [← hserver₁] at hpeer hfree hroom hinv ⊢
  have hid := allocateNetworkId_ne_zero (length_of_room hroom hinv)
  let joined := Session.packetFrom a .connectionNotification
  let w₂ := w₁.handled (.packet joined clockMs clockMs)
  rcases enrols E isClient Holds hpeer hfree hroom hfrom₁ clockMs with
    ⟨henrols, hserver₂, hflight₂⟩
  rw [hflight₁, hflight, List.nil_append] at hflight₂
  rcases announces (w := w₂) isClient hE hloads hs₁ hready₁ hid (hengine ▸ hhero) hflight₂ with
    ⟨w₃, s₃, hannounces, hserver₃, helse₃, hs₃, hfrom₃⟩
  let enrolled := newPlayer w₁.server joined clockMs
  have hplayers₃ : w₃.server.players = w₁.server.players ++ [enrolled] := by
    rw [hserver₃, hserver₂]
  have hpeer₃ : w₃.server.peer = true := by
    rw [hserver₃, hserver₂]
    exact hpeer
  have hadmits : RateAdmits enrolled clockMs := Or.inr (show 0 < kMaxPacketsPerSecond by decide)
  rcases spawns E isClient Holds hpeer₃ hplayers₃
    (fun q hq ha => hfree ⟨q, hq, ha⟩) rfl rfl hadmits hfrom₃ with ⟨hspawns, hplayers₄⟩
  let spawned := Session.packetFrom a
    (.createNetPlayer (allocateNetworkId w₁.server.players) d w₁.server.spawnPositionFor)
  let w₄ := w₃.handled (.packet spawned clockMs clockMs)
  have hrun : ReflTransGen (CalmStep E isClient Holds a) w w₄ :=
    ((ReflTransGen.single hasks).tail henrols |>.trans hannounces).tail hspawns
  -- What has been said meanwhile is handled last.
  rcases (linked hE hdisplays (h.trans hrun)).settle hE hdisplays hs₃ with ⟨s', hsettles⟩
  let w' : World σ :=
    { w₄ with
      clients := Function.update w₄.clients a (some s')
      inFlight := Function.update w₄.inFlight a [] }
  let p := (RelayServer.account enrolled clockMs).1.spawnAs d w₁.server.spawnPositionFor
  have hlast : p ∈ w'.server.players := hplayers₄ ▸ List.mem_append_right _ (by simp [p])
  have haddress : p.address = a := account_address enrolled clockMs
  have hp : p.networkId = allocateNetworkId w₁.server.players := account_networkId enrolled clockMs
  have hquiet : w'.inFlight a = [] := Function.update_self ..
  have hclient : w'.clients a = some s' := Function.update_self ..
  have hshows := (linked hE hdisplays (h.trans (hrun.trans hsettles))).shows hE hquiet hlast
    haddress hclient
  have hothers : recipients w'.server.players p.networkId =
      w₁.server.players.filter Player.spawned := by
    have hfresh : p.networkId ∉ w₁.server.players.map Player.networkId := by
      rw [hp]
      intro hmem
      rcases List.mem_map.1 hmem with ⟨q, hq, heq⟩
      exact allocateNetworkId_free (length_of_room hroom hinv) q hq heq
    rw [show w'.server.players = w₁.server.players ++ [p] from hplayers₄, recipients_snoc hfresh]
  have hclock := account_clock enrolled clockMs
  refine ⟨w', s', p, hrun.trans hsettles, ?_, hclient, hquiet, hplayers₄, haddress, rfl, hclock.1,
    hclock.2, hp, rfl, hhero, hshows.1, hothers ▸ hshows.2.1 rfl⟩
  intro b hb
  calc w'.clients b = w₃.clients b := Function.update_of_ne hb _ _
    _ = w₁.clients b := helse₃ b hb
    _ = w.clients b := helse₁ b hb

/-- The hero's game has connected, and the stranger is in the world already. -/
theorem gets_in_hero : ∃ w w' : World Engine.Table, ∃ s',
    HeroRun w ∧ ¬ Seated w.server heroAddress ∧
      ReflTransGen (CalmStep (fun _ => heroEngine) (fun b => b = heroAddress) Engine.Table.Holds
        heroAddress) w w' ∧
      Seated w'.server heroAddress ∧ w'.clients heroAddress = some s' ∧
      (s'.definitionTable heroEngine).Perm [(1, some 7)] := by
  have hstranger : ∀ (messageId : UInt8) (body : List UInt8),
      (strangerPacket messageId body).systemAddress = heroAddress → False := by
    intro messageId body hclient
    exact absurd (show strangerAddress = heroAddress from hclient) (by decide)
  have harrived := heroConnected_run.server (strangerPacket 134 [])
    (fun h => (hstranger _ _ h).elim) (by decide +kernel) (by decide +kernel)
  have hcreated := harrived.server
    (strangerPacket 136 ([0, 0, 0, 1] ++ [0, 0, 0, 7] ++ strangerPosition))
    (fun h => (hstranger _ _ h).elim) (by decide +kernel) (by decide +kernel)
  rcases gets_in (fun _ => heroEngine) (fun b => b = heroAddress) {} 0 none Engine.Table.Holds
    heroAddress (Engine.table_lawful _) (Engine.table_displays _) (Engine.table_loads _) _ hcreated
    heroSession rfl (by decide +kernel) (by decide +kernel) 1000 with
    ⟨w', s', p, hrun, _, hs', _, hplayers, haddress, _, _, _, _, _, _, _, hshows⟩
  refine ⟨_, w', s', hcreated, by decide +kernel, hrun, ⟨p, ?_, haddress⟩, hs', hshows.trans ?_⟩
  · rw [hplayers]
    exact List.mem_append_right _ (List.mem_singleton_self _)
  · decide +kernel

end World
end Crossover
