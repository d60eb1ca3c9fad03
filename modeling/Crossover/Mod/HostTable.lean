import Crossover.Mod.Avatars

/-!
# HostTable — the connections of a hosting network

`HandleConnectionNotification` appends an entry without a look at the address; a loss goes from the
address to the first matching id and from the id to the first matching entry.  Along runs in which
nobody knocks twice, ids and addresses stay distinct and the table is the list of those who are
connected.
-/

namespace Crossover
namespace Mod

open Wire

namespace Session

variable {σ : Type}

/-! ## Who is connected -/

/-- The packet tells the network that its sender is gone. -/
def IsLoss (packet : Packet) : Prop :=
  packet.kind = .disconnectionNotification ∨ packet.kind = .connectionLost

instance (packet : Packet) : Decidable (IsLoss packet) :=
  inferInstanceAs (Decidable (_ ∨ _))

/-- What an event does to the list of the clients that are connected. -/
def clientsStep (clients : List SystemAddress) : SessionEvent σ → List SystemAddress
  | .packet packet _ =>
      if packet.kind = .connectionNotification then
        if packet.systemAddress ∈ clients then clients else clients ++ [packet.systemAddress]
      else if IsLoss packet then clients.filter fun a => a != packet.systemAddress
      else clients
  | _ => clients

/-- The clients that are connected after the events. -/
def clientsAfter (events : List (SessionEvent σ)) : List SystemAddress :=
  events.foldl clientsStep []

/-- The event leaves the network hosting. -/
def KeepsHosting : SessionEvent σ → Prop
  | .disconnect _ => False
  | _ => True

/-! ## The property -/

/-- One copy of a broadcast. -/
def copyTo (bs : BitStream) (reliability : PacketReliability) (address : SystemAddress) :
    PeerCall :=
  .send { data := bs.data, priority := .high, reliability := reliability, address := address }

/-- What a hosting network's table has to be after the events. -/
structure TableKept (E : Engine σ) (events : List (SessionEvent σ)) (s : Session σ) : Prop where
  ids : (s.network.connections.map Connection.networkId).Nodup
  addresses : (s.network.connections.map Connection.address).Nodup
  /-- `GetFreeNetworkId` ends, with the least id from 0 on that is not in use. -/
  free : FirstFree.Finds (· ∈ s.network.connections.map Connection.networkId) (· + 1) 0
      (getFreeNetworkId s.network.connections) ∧
    0 ≤ getFreeNetworkId s.network.connections ∧
    ∀ j, 0 ≤ j → j < getFreeNetworkId s.network.connections →
      j ∈ s.network.connections.map Connection.networkId
  /-- The entries other than the host's own are those of the connected clients. -/
  clients : ∀ a, a ∈ clientsAfter events ↔
    ∃ connection ∈ s.network.connections, connection.networkId ≠ 0 ∧ connection.address = a
  /-- Everybody connected but client `k` gets one copy, and nobody with id 0 gets any. -/
  copies : ∀ k bs reliability, ∃ sent,
    (s.sendToAllClientsExcept k bs reliability).calls = s.calls ++ sent ∧
      (∀ connection ∈ s.network.connections, connection.networkId ≠ 0 →
        connection.networkId ≠ k → sent.count (copyTo bs reliability connection.address) = 1) ∧
      ∀ call ∈ sent, ∃ connection ∈ s.network.connections, connection.networkId ≠ 0 ∧
        connection.networkId ≠ k ∧ call = copyTo bs reliability connection.address
  gone : ∀ before packet rounds, events = before ++ [.packet packet rounds] → IsLoss packet →
    packet.systemAddress ∉ s.network.connections.map Connection.address

/-- The condition on a step: whoever knocks has an address that is not in the table, and whoever is
lost is not looked up as the host itself. -/
def Orderly (E : Engine σ) (s : Session σ) : SessionEvent σ → Prop
  | .packet packet _ =>
      (packet.kind = .connectionNotification →
        packet.systemAddress ∉ s.network.connections.map Connection.address ∧
          packet.systemAddress ≠ unassignedSystemAddress ∧
          s.network.connections.length + 1 < 2 ^ 31) ∧
      (IsLoss packet → s.getNetworkIdFromAddress E packet.systemAddress ≠ 0)
  | _ => True

/-! ## What a step does to the table -/

/-- The table after the event. -/
def tableStep (E : Engine σ) (s : Session σ) : SessionEvent σ → List Connection
  | .packet packet _ =>
      let connections := s.network.connections
      if packet.kind = .connectionNotification then
        connections ++
          [{ address := packet.systemAddress, networkId := getFreeNetworkId connections }]
      else if IsLoss packet then
        connections.eraseP fun connection =>
          connection.networkId == s.getNetworkIdFromAddress E packet.systemAddress
      else connections
  | _ => s.network.connections

/-- The peer is open for a host that nothing makes disconnect. -/
def Hosting (s : Session σ) : Prop :=
  s.network.active = true ∧ s.network.quitCallbacks = false

/-- The network is as before, up to the entry for the peer itself. -/
def SameTable (s s' : Session σ) : Prop :=
  s'.network.active = s.network.active ∧ s'.network.quitCallbacks = s.network.quitCallbacks ∧
    s'.network.connections = s.network.connections

theorem SameTable.of_network {s s' : Session σ} (h : s'.network = s.network) : SameTable s s' := by
  rw [SameTable, h]
  exact ⟨rfl, rfl, rfl⟩

section Steps

variable {E : Engine σ} {s s' : Session σ}

theorem network_createNetPlayers {networkId defGlobalIndex : Int32} {position : Vec3}
    (h : s.createNetPlayers E networkId position defGlobalIndex = .ok s') :
    s'.network = s.network := by
  rcases createNetPlayers_cases h with rfl | hcreate
  · rfl
  · exact (createNetPlayer_cases hcreate).2.1

theorem network_handleCreateNetPlayers {packet : Packet}
    (h : s.handleCreateNetPlayers E packet = .ok s') : s'.network = s.network :=
  createNetPlayersLoop_rel (R := fun s s' => s'.network = s.network) (fun _ => rfl)
    (fun h h' => h'.trans h) network_createNetPlayers h

theorem sameTable_handleCreateLocalNetPlayer (E : Engine σ) (s : Session σ) (packet : Packet) :
    SameTable s (s.handleCreateLocalNetPlayer E packet) := by
  unfold handleCreateLocalNetPlayer
  rw [SameTable, network_createLocalNetPlayer]
  exact ⟨rfl, rfl, rfl⟩

/-- The entry is in even where the callback finds no creature. -/
theorem handleConnectionNotification_network {address : SystemAddress}
    (h : s.handleConnectionNotification E address = .ok s') :
    s'.network = { s.network with connections := s.network.connections ++
      [{ address := address, networkId := getFreeNetworkId s.network.connections }] } :=
  (spoke_handleConnectionNotification h).quiet.network

/-- A host has no callback that disconnects, so a loss costs one entry at most. -/
theorem handleLoss_network {packet : Packet} {rounds : Nat}
    (hquit : s.network.quitCallbacks = false) (h : s.handleLoss E rounds packet = .ok s') :
    s'.network = { s.network with connections := s.network.connections.eraseP fun connection =>
      connection.networkId == s.getNetworkIdFromAddress E packet.systemAddress } := by
  rcases handleLoss_cases h with ⟨t, hremoved, hquits⟩
  rcases removeConnection_cases hremoved with ⟨u, hdestroyed, rfl⟩
  have hkept := (destroyNetPlayer_kept hdestroyed).2
  rcases hquits with ⟨hquits, _⟩ | ⟨_, rfl⟩
  · simp [hkept, hquit] at hquits
  · simp only [hkept]

theorem tableStep_other {packet : Packet} {rounds : Nat}
    (hknock : packet.kind ≠ .connectionNotification) (hloss : ¬ IsLoss packet) :
    tableStep E s (.packet packet rounds) = s.network.connections := by
  simp only [tableStep, if_neg hknock, if_neg hloss]

/-- A packet other than a notification or a loss. -/
theorem update_sameTable (hhosting : Hosting s) {packet : Packet} {rounds : Nat}
    (hknock : packet.kind ≠ .connectionNotification) (hloss : ¬ IsLoss packet)
    (h : s.update E rounds packet = .ok s') : SameTable s s' := by
  simp only [update, hhosting.1, Bool.not_true, Bool.false_eq_true, if_false] at h
  cases hkind : packet.kind with
  | connectionRequestAccepted =>
    simp only [hkind] at h
    cases h
    exact .of_network (quiet_peerSend _ _ _ _ _).network
  | connectionNotification => exact absurd hkind hknock
  | createLocalNetPlayer =>
    simp only [hkind] at h
    cases h
    exact sameTable_handleCreateLocalNetPlayer E s packet
  | createNetPlayer =>
    simp only [hkind] at h
    exact .of_network (createNetPlayer_cases h).2.1
  | createNetPlayers =>
    simp only [hkind] at h
    exact .of_network (network_handleCreateNetPlayers h)
  | playerMovement =>
    simp only [hkind] at h
    cases h
    exact .of_network (receiveNetPlayerMovement_ids s _ _ _).2.1
  | playerRotation =>
    simp only [hkind] at h
    cases h
    exact .of_network (receiveNetPlayerRotation_ids s _ _ _).2.1
  | disconnectionNotification => exact absurd (Or.inl hkind) hloss
  | connectionLost => exact absurd (Or.inr hkind) hloss
  | destroyNetPlayer =>
    simp only [hkind] at h
    exact .of_network (destroyNetPlayer_kept h).2
  | connectionAttemptFailed =>
    simp only [hkind, handleConnectionAttemptFailed, hhosting.2, Bool.false_eq_true,
      if_false] at h
    exact .of_network (congrArg Session.network (Except.ok.inj h).symm)
  | _ =>
    simp only [hkind] at h
    exact .of_network (congrArg Session.network (Except.ok.inj h).symm)

/-- A step of a host is what it does to the table. -/
theorem step_table (hhosting : Hosting s) {event : SessionEvent σ} (hkeeps : KeepsHosting event)
    (h : s.step E event = .ok s') :
    Hosting s' ∧ s'.network.connections = tableStep E s event := by
  have hsame : ∀ {connections}, SameTable s s' → connections = s.network.connections →
      Hosting s' ∧ s'.network.connections = connections := by
    rintro connections ⟨hactive, hquit, hconnections⟩ rfl
    exact ⟨⟨hactive.trans hhosting.1, hquit.trans hhosting.2⟩, hconnections⟩
  have hset : ∀ {connections}, s'.network = { s.network with connections := connections } →
      Hosting s' ∧ s'.network.connections = connections := by
    intro connections hnetwork
    rw [Hosting, hnetwork]
    exact ⟨hhosting, rfl⟩
  cases event with
  | packet packet rounds =>
    by_cases hknock : packet.kind = .connectionNotification
    · simp only [step, update, hhosting.1, hknock, Bool.not_true, Bool.false_eq_true,
        if_false] at h
      rw [tableStep, if_pos hknock]
      exact hset (handleConnectionNotification_network h)
    · by_cases hloss : IsLoss packet
      · have hlost : s.handleLoss E rounds packet = .ok s' := by
          rcases hloss with hkind | hkind
          · simpa only [step, update, hhosting.1, hkind, Bool.not_true, Bool.false_eq_true,
              if_false] using h
          · simpa only [step, update, hhosting.1, hkind, Bool.not_true, Bool.false_eq_true,
              if_false] using h
        rw [tableStep, if_neg hknock, if_pos hloss]
        exact hset (handleLoss_network hhosting.2 hlost)
      · exact hsame (update_sameTable hhosting hknock hloss h) (tableStep_other hknock hloss)
  | updateRegionLoad =>
    cases h
    exact hsame (.of_network (quiet_updateRegionLoad E s).network) rfl
  | resolveMovementAcceleration =>
    exact hsame (.of_network (sameManager_runAll moves_runMovementCallback h).network) rfl
  | resolveFacingDirection =>
    exact hsame (.of_network (sameManager_runAll moves_runFacingCallback h).network) rfl
  | game engine =>
    cases h
    exact hsame (.of_network rfl) rfl
  | disconnect rounds => exact absurd hkeeps id

end Steps

/-! ## Tables and the clients they list -/

/-- The host's own entry, then one entry for each of the clients. -/
structure Lists (connections : List Connection) (clients : List SystemAddress) : Prop where
  own : ∃ own rest, connections = own :: rest ∧ own.networkId = 0 ∧
    rest.map Connection.address = clients
  ids : (connections.map Connection.networkId).Nodup
  addresses : (connections.map Connection.address).Nodup
  natural : ∀ connection ∈ connections, 0 ≤ connection.networkId.toInt
  assigned : unassignedSystemAddress ∉ clients
  few : connections.length < 2 ^ 31

section Lists

variable {connections : List Connection} {clients : List SystemAddress} {a : SystemAddress}

/-- The unbounded loop of `GetFreeNetworkId` returns. -/
theorem getFreeNetworkId_returns (hfew : connections.length < 2 ^ 31) :
    FirstFree.Finds (· ∈ connections.map Connection.networkId) (· + 1) 0
      (getFreeNetworkId connections) := by
  have hfit : 0 + connections.length < 2 ^ 31 := by omega
  exact FirstFree.finds_int32 hfit

theorem getFreeNetworkId_least (hfew : connections.length < 2 ^ 31) :
    0 ≤ (getFreeNetworkId connections).toInt ∧
      getFreeNetworkId connections ∉ connections.map Connection.networkId ∧
      ∀ j, 0 ≤ j → j < getFreeNetworkId connections →
        j ∈ connections.map Connection.networkId := by
  have hfit : 0 + connections.length < 2 ^ 31 := by omega
  have hleast := FirstFree.least_int32 hfit (getFreeNetworkId_returns hfew)
  refine ⟨by simpa using hleast.1, hleast.2.2.1, ?_⟩
  intro j hj hlt
  exact hleast.2.2.2 j (by simpa using Int32.le_iff_toInt_le.1 hj) hlt

theorem Lists.mem_clients (h : Lists connections clients) :
    a ∈ clients ↔
      ∃ connection ∈ connections, connection.networkId ≠ 0 ∧ connection.address = a := by
  obtain ⟨own, rest, rfl, hown, rfl⟩ := h.own
  have hids := h.ids
  rw [List.map_cons, List.nodup_cons, hown] at hids
  constructor
  · intro hmem
    obtain ⟨connection, hrest, haddress⟩ := List.mem_map.1 hmem
    refine ⟨connection, List.mem_cons_of_mem _ hrest, ?_, haddress⟩
    intro hzero
    exact hids.1 (List.mem_map.2 ⟨connection, hrest, hzero⟩)
  · rintro ⟨connection, hmem, hne, haddress⟩
    rcases List.mem_cons.1 hmem with rfl | hrest
    · exact absurd hown hne
    · exact List.mem_map.2 ⟨connection, hrest, haddress⟩

theorem Lists.subset (h : Lists connections clients) :
    clients ⊆ connections.map Connection.address := by
  intro a ha
  obtain ⟨connection, hmem, _, haddress⟩ := h.mem_clients.1 ha
  exact List.mem_map.2 ⟨connection, hmem, haddress⟩

theorem lists_host (bound : SystemAddress) :
    Lists [{ address := bound, networkId := 0 }] [] := by
  refine ⟨⟨_, [], rfl, rfl, rfl⟩, ?_, ?_, ?_, ?_, ?_⟩ <;> simp

/-- A newcomer gets a free id at the end of the table. -/
theorem Lists.join (h : Lists connections clients)
    (hnew : a ∉ connections.map Connection.address) (hassigned : a ≠ unassignedSystemAddress)
    (hfew : connections.length + 1 < 2 ^ 31) :
    Lists
      (connections ++ [{ address := a, networkId := getFreeNetworkId connections }])
      (clients ++ [a]) := by
  have hleast := getFreeNetworkId_least h.few
  obtain ⟨own, rest, hsplit, hown, hclients⟩ := h.own
  constructor
  case own =>
    refine ⟨own, rest ++ [_], by rw [hsplit]; rfl, hown, ?_⟩
    rw [List.map_append, hclients]
    rfl
  case ids =>
    have hnodup := List.Nodup.concat hleast.2.1 h.ids
    simpa using hnodup
  case addresses =>
    have hnodup := List.Nodup.concat hnew h.addresses
    simpa using hnodup
  case natural =>
    intro connection hmem
    rcases List.mem_append.1 hmem with hold | hlast
    · exact h.natural connection hold
    · rw [List.mem_singleton.1 hlast]
      exact hleast.1
  case assigned =>
    intro hmem
    rcases List.mem_append.1 hmem with hold | hlast
    · exact h.assigned hold
    · exact hassigned (List.mem_singleton.1 hlast).symm
  case few =>
    simpa using hfew

/-- Somebody nobody knows leaves no trace: no entry has the id -1. -/
theorem Lists.stranger (h : Lists connections clients) :
    (connections.eraseP fun connection => connection.networkId == -1) = connections := by
  rw [List.eraseP_of_forall_not]
  intro connection hmem hneg
  have hnatural := h.natural connection hmem
  rw [beq_iff_eq.1 hneg] at hnatural
  exact absurd hnatural (by decide)

/-- The entry of a client goes, and with it the only one with its address. -/
theorem Lists.leave (h : Lists connections clients) {connection : Connection}
    (hmem : connection ∈ connections) (hid : connection.networkId ≠ 0) :
    let left := connections.eraseP fun other => other.networkId == connection.networkId
    Lists left (clients.filter fun a => a != connection.address) ∧
      connection.address ∉ left.map Connection.address := by
  obtain ⟨own, rest, rfl, hown, rfl⟩ := h.own
  have hrest : connection ∈ rest := by
    rcases List.mem_cons.1 hmem with rfl | hrest
    · exact absurd hown hid
    · exact hrest
  obtain ⟨before, after, rfl⟩ := List.mem_iff_append.1 hrest
  have hids := h.ids
  have haddresses := h.addresses
  have hassigned := h.assigned
  simp only [List.map_cons, List.map_append, List.nodup_cons, List.nodup_append, List.mem_append,
    List.mem_cons, not_or] at hids haddresses hassigned
  -- The first entry with the id is the client's.
  have hbefore : ∀ other ∈ own :: before, other.networkId ≠ connection.networkId := by
    intro other hother heq
    rcases List.mem_cons.1 hother with rfl | hother
    · exact hid (heq.symm.trans hown)
    · exact hids.2.2.2 _ (List.mem_map_of_mem hother) _ (Or.inl rfl) heq
  have herase : ((own :: (before ++ connection :: after)).eraseP fun other =>
      other.networkId == connection.networkId) = own :: (before ++ after) := by
    rw [← List.cons_append, List.eraseP_append_right, List.eraseP_cons_of_pos (by simp)]
    · rfl
    · intro other hother
      simpa using hbefore other hother
  have hfilter : ((before ++ connection :: after).map Connection.address).filter
      (fun a => a != connection.address) = (before ++ after).map Connection.address := by
    rw [List.map_append, List.map_cons, List.filter_append, List.filter_cons_of_neg (by simp),
      ← List.filter_append, ← List.map_append, List.filter_eq_self]
    intro a ha
    rw [List.map_append, List.mem_append] at ha
    rw [bne_iff_ne]
    rintro rfl
    rcases ha with ha | ha
    · exact haddresses.2.2.2 _ ha _ (Or.inl rfl) rfl
    · exact haddresses.2.2.1.1 ha
  intro left
  have hsublist :
      List.Sublist (own :: (before ++ after)) (own :: (before ++ connection :: after)) :=
    List.Sublist.cons_cons _ (List.Sublist.append_left (List.sublist_cons_self _ _) _)
  have hleft : left = own :: (before ++ after) := herase
  rw [hleft, hfilter]
  refine ⟨⟨⟨own, _, rfl, hown, rfl⟩, h.ids.sublist (hsublist.map _),
    h.addresses.sublist (hsublist.map _), ?_, ?_, ?_⟩, ?_⟩
  · intro other hother
    exact h.natural other (hsublist.subset hother)
  · intro hbad
    exact h.assigned ((hsublist.of_cons_cons.map _).subset hbad)
  · exact Nat.lt_of_le_of_lt hsublist.length_le h.few
  · rw [List.map_cons, List.mem_cons, not_or]
    refine ⟨fun heq => haddresses.1.2.1 heq.symm, ?_⟩
    rw [← hfilter, List.mem_filter]
    simp

end Lists

/-! ## Runs -/

section Runs

variable {E : Engine σ} {s s' : Session σ} {events : List (SessionEvent σ)}

theorem clientsAfter_snoc (events : List (SessionEvent σ)) (event : SessionEvent σ) :
    clientsAfter (events ++ [event]) = clientsStep (clientsAfter events) event := by
  rw [clientsAfter, List.foldl_append]
  rfl

/-- A loss that is not taken for the host's own takes the sender off the table. -/
theorem Lists.loss {connections : List Connection} {clients : List SystemAddress}
    (h : Lists s.network.connections clients) {a : SystemAddress}
    (hid : s.getNetworkIdFromAddress E a ≠ 0)
    (hleft : connections = s.network.connections.eraseP fun connection =>
      connection.networkId == s.getNetworkIdFromAddress E a) :
    Lists connections (clients.filter fun b => b != a) ∧
      a ∉ connections.map Connection.address := by
  unfold getNetworkIdFromAddress at hid hleft
  by_cases hhost : a = E.systemAddress s.network.settings.ip s.network.settings.port
  · exact absurd (if_pos hhost) hid
  · simp only [if_neg hhost] at hid hleft
    cases hfind : s.network.connections.find? fun connection => connection.address == a with
    | none =>
      have hstranger : a ∉ s.network.connections.map Connection.address := by
        intro hmem
        obtain ⟨connection, hin, haddress⟩ := List.mem_map.1 hmem
        have hnone := List.find?_eq_none.1 hfind connection hin
        exact hnone (by simpa using haddress)
      simp only [hfind] at hleft
      rw [h.stranger] at hleft
      rw [hleft, List.filter_eq_self.2]
      · exact ⟨h, hstranger⟩
      · intro b hb
        rw [bne_iff_ne]
        rintro rfl
        exact hstranger (h.subset hb)
    | some connection =>
      have hmem := List.mem_of_find?_eq_some hfind
      have haddress : connection.address = a := by simpa using List.find?_some hfind
      simp only [hfind] at hid hleft
      have hleaves := h.leave hmem hid
      rw [hleft, ← haddress]
      exact hleaves

/-- What one orderly step preserves. -/
theorem Lists.step (h : Lists s.network.connections (clientsAfter events)) {event : SessionEvent σ}
    (horderly : Orderly E s event) {connections : List Connection}
    (htable : connections = tableStep E s event) :
    Lists connections (clientsAfter (events ++ [event])) ∧
      ∀ packet rounds, event = .packet packet rounds → IsLoss packet →
        packet.systemAddress ∉ connections.map Connection.address := by
  rw [clientsAfter_snoc]
  cases event with
  | packet packet rounds =>
    by_cases hknock : packet.kind = .connectionNotification
    · obtain ⟨hnew, hassigned, hfew⟩ := horderly.1 hknock
      have hfresh : packet.systemAddress ∉ clientsAfter events := fun hmem => hnew (h.subset hmem)
      rw [htable, tableStep, clientsStep, if_pos hknock, if_pos hknock, if_neg hfresh]
      refine ⟨h.join hnew hassigned hfew, ?_⟩
      rintro packet' rounds' heq hloss
      cases heq
      rcases hloss with hkind | hkind
      · exact absurd (hknock.symm.trans hkind) (by decide)
      · exact absurd (hknock.symm.trans hkind) (by decide)
    · by_cases hloss : IsLoss packet
      · rw [tableStep, if_neg hknock, if_pos hloss] at htable
        rw [clientsStep, if_neg hknock, if_pos hloss]
        obtain ⟨hlists, hgone⟩ := h.loss (horderly.2 hloss) htable
        refine ⟨hlists, ?_⟩
        rintro packet' rounds' heq -
        cases heq
        exact hgone
      · rw [tableStep, if_neg hknock, if_neg hloss] at htable
        rw [clientsStep, if_neg hknock, if_neg hloss, htable]
        refine ⟨h, ?_⟩
        rintro packet' rounds' heq hloss'
        cases heq
        exact absurd hloss' hloss
  | _ =>
    rw [htable]
    exact ⟨h, fun _ _ heq => by cases heq⟩

/-- One copy for each entry but the host's own and client `k`'s. -/
theorem Lists.copies {clients : List SystemAddress} (h : Lists s.network.connections clients)
    (hactive : s.network.active = true) (k : Int32) (bs : BitStream)
    (reliability : PacketReliability) :
    ∃ sent, (s.sendToAllClientsExcept k bs reliability).calls = s.calls ++ sent ∧
      (∀ connection ∈ s.network.connections, connection.networkId ≠ 0 →
        connection.networkId ≠ k → sent.count (copyTo bs reliability connection.address) = 1) ∧
      ∀ call ∈ sent, ∃ connection ∈ s.network.connections, connection.networkId ≠ 0 ∧
        connection.networkId ≠ k ∧ call = copyTo bs reliability connection.address := by
  let receivers := clientsExcept s.network.connections k
  refine ⟨receivers.map fun connection => copyTo bs reliability connection.address, ?_, ?_, ?_⟩
  · rw [sendToAllClientsExcept_eq s hactive]
    rfl
  · intro connection hmem hzero hk
    have hassigned : connection.address ≠ unassignedSystemAddress := by
      intro heq
      exact h.assigned (h.mem_clients.2 ⟨connection, hmem, hzero, heq⟩)
    have hreceiver : connection ∈ receivers := by
      simp [receivers, clientsExcept, hmem, hzero, hk, hassigned]
    have hnodup : (receivers.map Connection.address).Nodup :=
      h.addresses.sublist (List.filter_sublist.map _)
    have hinjective : Function.Injective (copyTo bs reliability) := by
      intro a b hab
      simpa [copyTo] using hab
    have hcopies :
        (receivers.map fun connection => copyTo bs reliability connection.address).Nodup := by
      rw [← Function.comp_def, ← List.map_map]
      exact hnodup.map hinjective
    exact List.count_eq_one_of_mem hcopies (List.mem_map_of_mem hreceiver)
  · intro call hcall
    obtain ⟨connection, hreceiver, rfl⟩ := List.mem_map.1 hcall
    obtain ⟨hmem, hkept⟩ := List.mem_filter.1 hreceiver
    simp only [Bool.and_eq_true, bne_iff_ne] at hkept
    exact ⟨connection, hmem, hkept.1.2, hkept.1.1, rfl⟩

/-- The network of a host that has just started. -/
theorem network_opened_host (E : Engine σ) (process : Process σ) (port : UInt16) :
    (opened E process (.host port true)).network =
      { active := true
        boundAddress := process.boundAddress
        settings := { port := port }
        self := { address := process.boundAddress, networkId := 0 }
        connections := [{ address := process.boundAddress, networkId := 0 }] } := by
  have hfree : getFreeNetworkId [] = 0 := rfl
  simp only [opened, host, made, Bool.false_eq_true, if_false, Bool.not_true, hfree,
    List.nil_append, network_createLocalNetPlayer]

theorem run_lists (process : Process σ) (port : UInt16) (events : List (SessionEvent σ)) :
    ∀ s, (∀ event ∈ events, KeepsHosting event) →
      run E (opened E process (.host port true)) events = .ok s →
      Fallible.StepsSatisfy (step E) (Orderly E) (opened E process (.host port true)) events →
      (Hosting s ∧ Lists s.network.connections (clientsAfter events)) ∧
        ∀ before packet rounds, events = before ++ [.packet packet rounds] → IsLoss packet →
          packet.systemAddress ∉ s.network.connections.map Connection.address := by
  induction events using List.reverseRecOn with
  | nil =>
    intro s _ hrun _
    obtain rfl := Except.ok.inj hrun
    have hnetwork := network_opened_host E process port
    refine ⟨⟨⟨?_, ?_⟩, ?_⟩, fun before packet rounds hsplit => by simp at hsplit⟩
    · rw [hnetwork]
    · rw [hnetwork]
    · rw [hnetwork]
      exact lists_host process.boundAddress
  | append_singleton events event ih =>
    intro s' hkeeps hrun horderly
    obtain ⟨s, hbefore, hlast⟩ := Fallible.run_snoc_ok.1 hrun
    obtain ⟨hfirst, hstep⟩ := Fallible.stepsSatisfy_snoc.1 horderly
    have hI := (ih s (fun e he => hkeeps e (List.mem_append_left _ he)) hbefore hfirst).1
    obtain ⟨hhosting, htable⟩ := step_table hI.1 (hkeeps event (by simp)) hlast
    obtain ⟨hlists, hgone⟩ := hI.2.step (hstep s hbefore) htable
    refine ⟨⟨hhosting, hlists⟩, ?_⟩
    intro before packet rounds hsplit
    exact hgone packet rounds (List.append_inj_right' hsplit rfl |> List.singleton_inj.1)

/-- Host connection table.  In every state that a hosting network reaches by orderly steps, ids and
addresses are distinct, the free id is the least one, a broadcast is one copy for each other client,
and nobody who has left is still listed. -/
theorem host_table_of_orderly (E : Engine σ) (process : Process σ) (port : UInt16)
    (events : List (SessionEvent σ)) (s : Session σ)
    (hkeeps : ∀ event ∈ events, KeepsHosting event)
    (hrun : run E (opened E process (.host port true)) events = .ok s)
    (horderly : Fallible.StepsSatisfy (step E) (Orderly E)
      (opened E process (.host port true)) events) :
    TableKept E events s := by
  obtain ⟨⟨hhosting, hlists⟩, hgone⟩ := run_lists process port events s hkeeps hrun horderly
  have hleast := getFreeNetworkId_least hlists.few
  exact
    { ids := hlists.ids
      addresses := hlists.addresses
      free := ⟨getFreeNetworkId_returns hlists.few,
        Int32.le_iff_toInt_le.2 (by simpa using hleast.1), hleast.2.2⟩
      clients := fun a => hlists.mem_clients
      copies := hlists.copies hhosting.1
      gone := hgone }

/-! ### A client that knocks twice -/

/-- The client's answer to an accepted connection request. -/
def knock : Packet where
  systemAddress := exampleAddress "" 50001
  guid := 1
  data := [idConnectionNotification]
  nonempty := by decide

theorem host_table_of_orderly_knock :
    ∃ s, run (Engine.table exampleAddress)
        (opened (Engine.table exampleAddress) hostProcess (.host 60000 true))
        [.packet knock 0] = .ok s ∧
      TableKept (Engine.table exampleAddress) [.packet knock 0] s := by
  refine ⟨_, rfl, host_table_of_orderly (Engine.table exampleAddress) hostProcess 60000 _ _
    (fun _ _ => by simp_all [KeepsHosting]) rfl ?_⟩
  refine History.every_singleton.2 ?_
  rintro s hrun
  obtain rfl := Except.ok.inj hrun
  exact ⟨fun _ => by decide, fun hloss => absurd hloss (by decide)⟩

/-- The second notification of the same client adds a second entry for it. -/
theorem repeated_notification_listed_twice :
    ¬ ∀ (E : Engine Engine.Table) (process : Process Engine.Table) (port : UInt16)
        (events : List (SessionEvent Engine.Table)) (s : Session Engine.Table),
        (∀ event ∈ events, KeepsHosting event) →
        run E (opened E process (.host port true)) events = .ok s → TableKept E events s := by
  intro hall
  let events : List (SessionEvent Engine.Table) := [.packet knock 0, .packet knock 0]
  cases hrun : run (Engine.table exampleAddress)
      (opened (Engine.table exampleAddress) hostProcess (.host 60000 true)) events with
  | error fault => cases hrun
  | ok s =>
    have hkept := hall (Engine.table exampleAddress) hostProcess 60000 events s
      (fun _ _ => by simp_all [events, KeepsHosting]) hrun
    have hlisted : s.network.connections.map Connection.address =
        [exampleAddress "" 60000, exampleAddress "" 50001, exampleAddress "" 50001] := by
      obtain rfl := Except.ok.inj hrun
      rfl
    have hnodup := hkept.addresses
    rw [hlisted] at hnodup
    exact absurd hnodup (by decide)

end Runs

end Session
end Mod
end Crossover
