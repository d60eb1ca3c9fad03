import Crossover.Server.Transparency

/-!
# Isolation — what a packet can touch

A packet is about its sender.  The other clients' records stay as they are, what is sent goes to
spawned players other than the sender, and to the sender go its own assignment and its roster only.
-/

namespace Crossover
namespace Server

open Wire

/-- The records of the other clients, in order. -/
def othersOf (a : SystemAddress) (players : List Player) : List Player :=
  players.filter fun p => p.address != a

/-- What a client has told of itself. -/
def Player.announced (p : Player) : Bool × Int32 × Vec3 × Vec3 × Vec3 :=
  (p.spawned, p.defGlobalIndex, p.position, p.up, p.forward)

/-- The calls that a packet from `a` may cause; `players` is the table behind it. -/
inductive Permitted (a : SystemAddress) (players : List Player) : PeerCall → Prop
  | relay {send : Send} {q : Player} (hq : q ∈ players) (hspawned : q.spawned = true)
      (hother : q.address ≠ a) (haddress : send.address = q.address) :
      Permitted a players (.send send)
  | assign {self : Player} (position : Vec3) (hself : findByAddress players a = some self) :
      Permitted a players (Message.sendTo (.createLocalNetPlayer self.networkId position) a)
  | roster {self : Player} (hself : findByAddress players a = some self) :
      Permitted a players ((rosterMessage players self.networkId).sendTo a)
  | refuse : Permitted a players (.closeConnection a true)

/-- A step on account of `a` is about `a`. -/
structure Isolates (a : SystemAddress) (s : RelayServer) (result : RelayServer × List PeerCall) :
    Prop where
  others : othersOf a result.1.players = othersOf a s.players
  calls : ∀ call ∈ result.2, Permitted a result.1.players call

section Handlers

variable {s : RelayServer} {packet : Packet} {a : SystemAddress}

theorem Isolates.refl (a : SystemAddress) (s : RelayServer) : Isolates a s (s, []) :=
  ⟨rfl, by simp⟩

theorem othersOf_updateByAddress {players : List Player} {f : Player → Player}
    (hf : ∀ q, (f q).address = q.address) :
    othersOf a (updateByAddress a f players) = othersOf a players := by
  induction players with
  | nil => rfl
  | cons q players ih =>
    by_cases hq : q.address = a
    · simp [updateByAddress, othersOf, hq, hf]
    · have hrest := ih
      simp only [othersOf] at hrest
      simp [updateByAddress, othersOf, hq, hrest]

/-- A relayed message goes to others if the excepted id is the one behind the address. -/
theorem permitted_relayExcept {players : List Player} {id : Int32}
    (hid : ∀ q ∈ players, q.address = a → q.networkId = id) (bs : BitStream)
    (priority : PacketPriority) (reliability : PacketReliability) :
    ∀ call ∈ relayExcept players id bs priority reliability, Permitted a players call := by
  intro call hcall
  rcases List.mem_map.1 hcall with ⟨q, hq, rfl⟩
  rcases List.mem_filter.1 hq with ⟨hmem, hpass⟩
  have hpass' : q.networkId ≠ id ∧ q.spawned = true := by simpa using hpass
  exact .relay hmem hpass'.2 (fun haddr => hpass'.1 (hid q hmem haddr)) rfl

/-- The record behind an address is the only one with it. -/
theorem networkId_of_address {players : List Player} {self : Player}
    (haddrs : (players.map Player.address).Nodup) (hself : findByAddress players a = some self) :
    ∀ q ∈ players, q.address = a → q.networkId = self.networkId := by
  intro q hq haddr
  have hfind := findByAddress_of_mem haddrs hq
  rw [haddr, hself] at hfind
  rw [Option.some.inj hfind]

theorem isolates_handleConnectionNotification (s : RelayServer) (packet : Packet) (nowMs : Int) :
    Isolates packet.systemAddress s (s.handleConnectionNotification packet nowMs) := by
  cases hfind : findByAddress s.players packet.systemAddress with
  | some self =>
    rw [handleConnectionNotification_known hfind]
    exact Isolates.refl _ s
  | none =>
    by_cases hfull : Int32.ofNat s.players.length ≥ s.config.maxPlayers
    · rw [handleConnectionNotification_full hfind hfull]
      refine ⟨rfl, ?_⟩
      intro call hcall
      rw [List.mem_singleton.1 hcall]
      exact .refuse
    · rw [handleConnectionNotification_join hfind hfull]
      refine ⟨?_, ?_⟩
      · simp [othersOf, newPlayer]
      · have hnew : findByAddress (s.players ++ [newPlayer s packet nowMs])
            packet.systemAddress = some (newPlayer s packet nowMs) := by
          rw [findByAddress, List.find?_append]
          rw [findByAddress] at hfind
          simp [hfind, newPlayer]
        have hid : allocateNetworkId s.players = (newPlayer s packet nowMs).networkId := rfl
        intro call hcall
        rw [List.mem_singleton.1 hcall, hid]
        exact .assign _ hnew

/-- The sender's record behind an assignment to it, the only one with its address. -/
theorem self_after_update (h : TableInv s) {self : Player} {f : Player → Player}
    (haddr : ∀ q, (f q).address = q.address) (hid : ∀ q, (f q).networkId = q.networkId)
    (hfind : findByAddress s.players a = some self) :
    findByAddress (updateByAddress a f s.players) a = some (f self) ∧
      ∀ q ∈ updateByAddress a f s.players, q.address = a → q.networkId = self.networkId := by
  have hafter : findByAddress (updateByAddress a f s.players) a = some (f self) := by
    rw [findByAddress_updateByAddress f haddr, hfind, Option.map_some,
      if_pos (findByAddress_address hfind)]
  refine ⟨hafter, ?_⟩
  intro q hq haddress
  have hsame := networkId_of_address (h.update haddr hid).addrs hafter q hq haddress
  exact hsame.trans (hid self)

theorem isolates_handleCreateNetPlayer (h : TableInv s) (packet : Packet) :
    Isolates packet.systemAddress s (s.handleCreateNetPlayer packet) := by
  unfold RelayServer.handleCreateNetPlayer
  split
  · exact Isolates.refl _ s
  · split
    · exact Isolates.refl _ s
    · rename_i self hfind
      let spawn := Player.spawnAs (readCreateNetPlayer packet).2.1 (readCreateNetPlayer packet).2.2
      rcases self_after_update (f := spawn) h (fun _ => rfl) (fun _ => rfl) hfind with
        ⟨hafter, hids⟩
      refine ⟨othersOf_updateByAddress fun _ => rfl, ?_⟩
      intro call hcall
      rcases List.mem_append.1 hcall with hcall | hcall
      · exact permitted_relayExcept hids _ _ _ call hcall
      · rw [sendRoster_eq] at hcall
        split at hcall
        · cases hcall
        · rw [List.mem_singleton.1 hcall, findByAddress_address hfind]
          exact @Permitted.roster _ _ (spawn self) hafter

theorem isolates_handleMotion {minSize : Nat} {messageId : UInt8}
    {store : Vec3 → Vec3 → Player → Player} (h : TableInv s) (packet : Packet)
    (haddr : ∀ v w q, (store v w q).address = q.address)
    (hid : ∀ v w q, (store v w q).networkId = q.networkId) :
    Isolates packet.systemAddress s (s.handleMotion minSize messageId store packet) := by
  unfold RelayServer.handleMotion
  split
  · exact Isolates.refl _ s
  · split
    · exact Isolates.refl _ s
    · rename_i self hfind
      split
      · exact Isolates.refl _ s
      · refine ⟨othersOf_updateByAddress (haddr _ _), ?_⟩
        exact permitted_relayExcept (self_after_update h (haddr _ _) (hid _ _) hfind).2 _ _ _

theorem isolates_handleDrop (h : TableInv s) (packet : Packet) :
    Isolates packet.systemAddress s (s.handleDrop packet) := by
  unfold RelayServer.handleDrop
  split
  · exact Isolates.refl _ s
  · rename_i self hfind
    have hself := findByAddress_mem hfind
    have haddress := findByAddress_address hfind
    refine ⟨?_, ?_⟩
    · -- The record erased by its id is the one behind the address.
      simp only [othersOf, List.filter_filter]
      apply List.filter_congr
      intro q hq
      have hsame : q.networkId = self.networkId → q.address = packet.systemAddress := by
        intro hid
        rw [h.eq_of_networkId hq hself hid, haddress]
      by_cases hid : q.networkId = self.networkId
      · simp [hsame hid]
      · simp [hid]
    · intro call hcall
      simp only at hcall
      split at hcall
      · refine permitted_relayExcept ?_ _ _ _ call hcall
        intro q hq hqa
        exact congrArg Player.networkId
          (h.eq_of_address (List.mem_filter.1 hq).1 hself (hqa.trans haddress.symm))
      · cases hcall

theorem isolates_dispatch (h : TableInv s) (packet : Packet) (nowMs : Int) :
    Isolates packet.systemAddress s (s.dispatch packet nowMs) := by
  unfold RelayServer.dispatch
  split
  · exact isolates_handleConnectionNotification s packet nowMs
  · exact isolates_handleCreateNetPlayer h packet
  · exact isolates_handleMotion h packet (fun _ _ _ => rfl) (fun _ _ _ => rfl)
  · exact isolates_handleMotion h packet (fun _ _ _ => rfl) (fun _ _ _ => rfl)
  · exact isolates_handleDrop h packet
  · exact isolates_handleDrop h packet
  · exact Isolates.refl _ s

end Handlers

/-! ## The whole step -/

section Steps

variable {s : RelayServer} {packet : Packet}

theorem others_bookkeep (s : RelayServer) (packet : Packet) (tickMs : Int) :
    othersOf packet.systemAddress (s.bookkeep packet tickMs).1.players =
      othersOf packet.systemAddress s.players := by
  unfold RelayServer.bookkeep
  split
  · rfl
  · exact othersOf_updateByAddress fun q => account_address q tickMs

theorem account_announced (p : Player) (nowMs : Int) :
    (RelayServer.account p nowMs).1.announced = p.announced := by
  simp only [RelayServer.account, RelayServer.acceptRate, RelayServer.rollRateWindow]
  split <;> split <;> rfl

/-- Counting a packet leaves alone what its sender has told of itself. -/
theorem announced_bookkeep (s : RelayServer) (packet : Packet) (tickMs : Int) :
    (findByAddress (s.bookkeep packet tickMs).1.players packet.systemAddress).map
        Player.announced =
      (findByAddress s.players packet.systemAddress).map Player.announced := by
  cases hfind : findByAddress s.players packet.systemAddress with
  | none => simp [RelayServer.bookkeep, hfind]
  | some self => simp [find_bookkeep hfind, account_announced]

theorem isolates_tickPacket (h : TableInv s) (packet : Packet) (tickMs handlerMs : Int) :
    Isolates packet.systemAddress s (s.tickPacket packet tickMs handlerMs) := by
  have hothers := others_bookkeep s packet tickMs
  simp only [RelayServer.tickPacket]
  split
  · have hinv := (keepsTable_bookkeep s packet tickMs).inv h
    have hbooked := isolates_dispatch hinv packet handlerMs
    exact ⟨hbooked.others.trans hothers, hbooked.calls⟩
  · exact ⟨hothers, by simp⟩

/-- From an address without a record only a join request is looked at. -/
theorem dispatch_stranger (hfind : findByAddress s.players packet.systemAddress = none)
    (hkind : packet.kind ≠ .connectionNotification) (nowMs : Int) :
    s.dispatch packet nowMs = (s, []) := by
  -- There is no record, so there is none that has spawned.
  have hmotion : ∀ self, findByAddress s.players packet.systemAddress = some self →
      self.spawned = false := by
    intro self hself
    rw [hfind] at hself
    cases hself
  cases hwhat : packet.kind with
  | connectionNotification => exact absurd hwhat hkind
  | createNetPlayer =>
    simp only [RelayServer.dispatch, hwhat]
    exact handleCreateNetPlayer_unknown hfind
  | playerMovement =>
    simp only [RelayServer.dispatch, hwhat]
    exact handleMotion_unspawned hmotion
  | playerRotation =>
    simp only [RelayServer.dispatch, hwhat]
    exact handleMotion_unspawned hmotion
  | disconnectionNotification =>
    simp only [RelayServer.dispatch, hwhat]
    exact handleDrop_unknown hfind
  | connectionLost =>
    simp only [RelayServer.dispatch, hwhat]
    exact handleDrop_unknown hfind
  | _ => simp only [RelayServer.dispatch, hwhat]

/-- A rejected packet is counted and nothing else. -/
theorem tickPacket_rejected {length : Nat} (hrelayed : relayedLength packet.kind = some length)
    (hreject : packet.length < length ∨ packet.kind ≠ .createNetPlayer ∧
      ∀ self, findByAddress s.players packet.systemAddress = some self → self.spawned = false)
    (tickMs handlerMs : Int) :
    s.tickPacket packet tickMs handlerMs = ((s.bookkeep packet tickMs).1, []) := by
  -- The handler sees the record after the bookkeeping, which leaves `spawned` alone.
  have hnot : packet.length < length ∨ ∀ self,
      findByAddress (s.bookkeep packet tickMs).1.players packet.systemAddress = some self →
        packet.kind ≠ .createNetPlayer ∧ self.spawned = false := by
    refine hreject.imp_right ?_
    rintro ⟨hkind, hunspawned⟩ self hself
    refine ⟨hkind, ?_⟩
    have hannounced := announced_bookkeep s packet tickMs
    rw [hself] at hannounced
    rcases Option.map_eq_some_iff.1 hannounced.symm with ⟨before, hbefore, hsame⟩
    exact (congrArg Prod.fst hsame).symm.trans (hunspawned before hbefore)
  simp only [RelayServer.tickPacket, dispatch_rejected hrelayed hnot handlerMs]
  split <;> rfl

end Steps

/-- Whatever packet a reachable server takes from an address, the other clients' records stay as
they are, what is sent is permitted, a stranger gets in by a join request only, and a packet that is
too short, or motion before the spawn, has no effect but being counted. -/
theorem client_isolation (config : Config) (nowMs : Int) (restored : Option Vec3)
    (events : List Event) (packet : Packet) (tickMs handlerMs : Int) :
    let s := server.state (start config nowMs restored) events
    let a := packet.systemAddress
    let result := step s (.packet packet tickMs handlerMs)
    othersOf a result.1.players = othersOf a s.players ∧
      (∀ call ∈ result.2, Permitted a result.1.players call) ∧
      (findByAddress s.players a = none → packet.kind ≠ .connectionNotification →
        result = (s, [])) ∧
      ∀ length, relayedLength packet.kind = some length →
        (packet.length < length ∨ packet.kind ≠ .createNetPlayer ∧
          ∀ self, findByAddress s.players a = some self → self.spawned = false) →
        result.2 = [] ∧
          (findByAddress result.1.players a).map Player.announced =
            (findByAddress s.players a).map Player.announced := by
  intro s a result
  have hinv : ServerInv config s := serverInv_run config nowMs restored events
  cases hpeer : s.peer with
  | false =>
    have hidle : result = (s, []) := by simp [result, step, hpeer]
    rw [hidle]
    exact ⟨rfl, by simp, fun _ _ => rfl, fun _ _ _ => ⟨rfl, rfl⟩⟩
  | true =>
    have hresult : result = s.tickPacket packet tickMs handlerMs := by
      simp [result, step, hpeer]
    have hisolates := isolates_tickPacket hinv.table packet tickMs handlerMs
    rw [hresult]
    refine ⟨hisolates.others, hisolates.calls, ?_, ?_⟩
    · -- A stranger's packet is not even counted: there is no record to count it in.
      intro hfind hkind
      have hbooked := bookkeep_of_stranger hfind tickMs
      simp only [RelayServer.tickPacket, hbooked, if_true]
      exact dispatch_stranger hfind hkind handlerMs
    · intro length hrelayed hreject
      rw [tickPacket_rejected hrelayed hreject tickMs handlerMs]
      exact ⟨rfl, announced_bookkeep s packet tickMs⟩

end Server
end Crossover
