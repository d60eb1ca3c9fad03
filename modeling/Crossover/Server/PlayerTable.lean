import Mathlib.Data.List.Nodup
import Crossover.Server.Messages

/-!
# PlayerTable — what every step keeps true of `players_`

Addresses and network ids are not shared, the table fits the configured slots and every id lies in
`1..maxPlayers`.  Lowest-free allocation stays within the slots because among `players_.size() + 1`
candidates one is free.
-/

namespace Crossover
namespace Server

open Wire

/-! ## Lookup and assignment by address -/

section ByAddress

variable {players : List Player} {a : SystemAddress} {p : Player}

theorem findByAddress_mem (h : findByAddress players a = some p) : p ∈ players :=
  List.mem_of_find?_eq_some h

theorem findByAddress_address (h : findByAddress players a = some p) : p.address = a := by
  simpa using List.find?_some h

theorem findByAddress_eq_none : findByAddress players a = none ↔ ∀ q ∈ players, q.address ≠ a := by
  simp [findByAddress]

theorem findByAddress_of_mem (hnodup : (players.map Player.address).Nodup) (hp : p ∈ players) :
    findByAddress players p.address = some p := by
  cases hfind : findByAddress players p.address with
  | none => exact absurd rfl (findByAddress_eq_none.1 hfind p hp)
  | some q =>
    have hq : q ∈ players := findByAddress_mem hfind
    have haddr : q.address = p.address := findByAddress_address hfind
    rw [List.inj_on_of_nodup_map hnodup hq hp haddr]

/-- The assignment changes the record the lookup finds and no other. -/
theorem exists_split_of_findByAddress (f : Player → Player) (h : findByAddress players a = some p) :
    ∃ before after, players = before ++ p :: after ∧
      updateByAddress a f players = before ++ f p :: after := by
  induction players with
  | nil => simp [findByAddress] at h
  | cons q players ih =>
    by_cases hq : q.address = a
    · obtain rfl : q = p := by simpa [findByAddress, hq] using h
      exact ⟨[], players, by simp, by simp [updateByAddress, hq]⟩
    · have hrest : findByAddress players a = some p := by
        simpa [findByAddress, hq] using h
      rcases ih hrest with ⟨before, after, hsplit, hupdate⟩
      exact ⟨q :: before, after, by simp [hsplit], by simp [updateByAddress, hq, hupdate]⟩

@[simp] theorem length_updateByAddress (f : Player → Player) :
    (updateByAddress a f players).length = players.length := by
  induction players with
  | nil => rfl
  | cons q players ih =>
    by_cases hq : q.address = a <;> simp [updateByAddress, hq, ih]

/-- Fields the assignment keeps are the same in the whole vector. -/
theorem map_updateByAddress {β : Type} (g : Player → β) (f : Player → Player)
    (hg : ∀ q, g (f q) = g q) : (updateByAddress a f players).map g = players.map g := by
  induction players with
  | nil => rfl
  | cons q players ih =>
    by_cases hq : q.address = a <;> simp [updateByAddress, hq, hg, ih]

theorem findByAddress_updateByAddress (f : Player → Player) (hf : ∀ q, (f q).address = q.address)
    (b : SystemAddress) :
    findByAddress (updateByAddress a f players) b =
      (findByAddress players b).map fun q => if q.address = a then f q else q := by
  induction players with
  | nil => rfl
  | cons q players ih =>
    simp only [findByAddress] at ih ⊢
    by_cases hq : q.address = a
    · by_cases hb : q.address = b
      · have hba : b = a := hb.symm.trans hq
        simp [updateByAddress, hq, hf, hba]
      · have hab : ¬ a = b := fun hab => hb (hq.trans hab)
        have htail : ∀ l : List Player,
            l.find? (fun r => r.address == b) =
              (l.find? fun r => r.address == b).map fun r => if r.address = a then f r else r := by
          intro l
          cases hfind : l.find? fun r => r.address == b with
          | none => rfl
          | some r =>
            have hr : r.address = b := by simpa using List.find?_some hfind
            have hne : ¬ b = a := fun hba => hab hba.symm
            simp [hr, hne]
        simpa [updateByAddress, hq, hf, hab] using htail players
    · by_cases hb : q.address = b
      · have hba : ¬ b = a := fun hba => hq (hb.trans hba)
        simp [updateByAddress, hb, hba]
      · simpa [updateByAddress, hq, hb] using ih

end ByAddress

/-! ## Lowest-free allocation -/

theorem allocateNetworkId_eq (players : List Player) :
    allocateNetworkId players =
      FirstFree.search (fun c => decide (c ∈ players.map Player.networkId)) (· + 1)
        (players.map Player.networkId).length kFirstClientNetworkId := by
  unfold allocateNetworkId
  rw [List.length_map]
  congr
  funext candidate
  rw [Bool.eq_iff_iff]
  simp

section Allocation

variable {players : List Player} (hlen : players.length < 2 ^ 31 - 1)

include hlen

/-- The unbounded loop of `AllocateNetworkId` returns. -/
theorem allocateNetworkId_returns :
    AllocateNetworkIdLoop players kFirstClientNetworkId (allocateNetworkId players) := by
  have hfit : 1 + players.length < 2 ^ 31 := by omega
  rw [allocateNetworkId_eq, List.length_map]
  exact FirstFree.finds_int32 hfit

theorem toInt_allocateNetworkId :
    1 ≤ (allocateNetworkId players).toInt ∧
      (allocateNetworkId players).toInt ≤ players.length + 1 := by
  have hfit : 1 + players.length < 2 ^ 31 := by omega
  have hleast := FirstFree.least_int32 hfit (allocateNetworkId_returns hlen)
  exact ⟨hleast.1, by omega⟩

theorem allocateNetworkId_free : ∀ p ∈ players, p.networkId ≠ allocateNetworkId players := by
  intro p hp heq
  exact (allocateNetworkId_returns hlen).not_used (heq ▸ List.mem_map_of_mem hp)

/-- Every smaller positive id is held by a player. -/
theorem allocateNetworkId_least {j : Int32} (hj : 1 ≤ j) (hlt : j < allocateNetworkId players) :
    ∃ p ∈ players, p.networkId = j := by
  have hfit : 1 + players.length < 2 ^ 31 := by omega
  have hleast := FirstFree.least_int32 hfit (allocateNetworkId_returns hlen)
  exact List.mem_map.1 (hleast.2.2.2 j (Int32.le_iff_toInt_le.1 hj) hlt)

end Allocation

/-! ## The invariant -/

/-- The player-table invariant. -/
structure TableInv (s : RelayServer) : Prop where
  addrs : (s.players.map Player.address).Nodup
  ids : (s.players.map Player.networkId).Nodup
  size : s.players.length ≤ s.config.maxPlayers.toInt.toNat
  range : ∀ p ∈ s.players, 1 ≤ p.networkId ∧ p.networkId ≤ s.config.maxPlayers

/-- Two records of the table with the same address or the same id are the same. -/
theorem TableInv.eq_of_address {s : RelayServer} (h : TableInv s) {p q : Player}
    (hp : p ∈ s.players) (hq : q ∈ s.players) (heq : p.address = q.address) : p = q :=
  List.inj_on_of_nodup_map h.addrs hp hq heq

theorem TableInv.eq_of_networkId {s : RelayServer} (h : TableInv s) {p q : Player}
    (hp : p ∈ s.players) (hq : q ∈ s.players) (heq : p.networkId = q.networkId) : p = q :=
  List.inj_on_of_nodup_map h.ids hp hq heq

theorem maxPlayers_lt (config : Config) : config.maxPlayers.toInt.toNat < 2 ^ 31 := by
  have h := config.maxPlayers.toInt_lt
  omega

theorem TableInv.length_lt {s : RelayServer} (h : TableInv s) : s.players.length < 2 ^ 31 :=
  Nat.lt_of_le_of_lt h.size (maxPlayers_lt s.config)

/-- Assignments that keep address and id keep the invariant. -/
theorem TableInv.update {s : RelayServer} (h : TableInv s) {a : SystemAddress}
    {f : Player → Player} (haddr : ∀ q, (f q).address = q.address)
    (hid : ∀ q, (f q).networkId = q.networkId) :
    TableInv { s with players := updateByAddress a f s.players } where
  addrs := by simpa [map_updateByAddress Player.address f haddr] using h.addrs
  ids := by simpa [map_updateByAddress Player.networkId f hid] using h.ids
  size := by simpa using h.size
  range := by
    intro p hp
    have hmem : p.networkId ∈ (updateByAddress a f s.players).map Player.networkId :=
      List.mem_map_of_mem hp
    rw [map_updateByAddress Player.networkId f hid] at hmem
    rcases List.mem_map.1 hmem with ⟨q, hq, heq⟩
    exact heq ▸ h.range q hq

/-- Removing records keeps the invariant. -/
theorem TableInv.filter {s : RelayServer} (h : TableInv s) (keep : Player → Bool) :
    TableInv { s with players := s.players.filter keep } where
  addrs := h.addrs.sublist (List.Sublist.map _ List.filter_sublist)
  ids := h.ids.sublist (List.Sublist.map _ List.filter_sublist)
  size := Nat.le_trans (List.length_filter_le keep s.players) h.size
  range := fun p hp => h.range p (List.mem_filter.1 hp).1

/-- The capacity test of a join, read as numbers. -/
theorem TableInv.not_full {s : RelayServer} (h : TableInv s)
    (hfull : ¬ Int32.ofNat s.players.length ≥ s.config.maxPlayers) :
    (s.players.length : Int) < s.config.maxPlayers.toInt := by
  have hlt := Nat.lt_of_le_of_lt h.size (maxPlayers_lt s.config)
  rw [ge_iff_le, Int32.le_iff_toInt_le, Int32.toInt_ofNat_of_lt hlt] at hfull
  exact Int.not_le.1 hfull

theorem TableInv.join {s : RelayServer} (h : TableInv s) {p : Player}
    (hnone : findByAddress s.players p.address = none)
    (hroom : (s.players.length : Int) < s.config.maxPlayers.toInt)
    (hid : p.networkId = allocateNetworkId s.players) :
    TableInv { s with players := s.players ++ [p] } := by
  have hmax := s.config.maxPlayers.toInt_lt
  have hlen : s.players.length < 2 ^ 31 - 1 := by omega
  refine ⟨?_, ?_, ?_, ?_⟩
  · rw [List.map_append, List.nodup_append]
    refine ⟨h.addrs, by simp, ?_⟩
    intro x hx y hy
    rcases List.mem_map.1 hx with ⟨q, hq, rfl⟩
    have hy' : y = p.address := by simpa using hy
    exact hy' ▸ findByAddress_eq_none.1 hnone q hq
  · rw [List.map_append, List.nodup_append]
    refine ⟨h.ids, by simp, ?_⟩
    intro x hx y hy
    rcases List.mem_map.1 hx with ⟨q, hq, rfl⟩
    have hy' : y = p.networkId := by simpa using hy
    exact hy' ▸ hid ▸ allocateNetworkId_free hlen q hq
  · simp only [List.length_append, List.length_singleton]
    omega
  · intro q hq
    rcases List.mem_append.1 hq with hq | hq
    · exact h.range q hq
    · obtain rfl := List.mem_singleton.1 hq
      have hbounds := toInt_allocateNetworkId hlen
      have hone : (1 : Int32).toInt = 1 := rfl
      rw [hid, Int32.le_iff_toInt_le, Int32.le_iff_toInt_le, hone]
      refine ⟨hbounds.1, ?_⟩
      show _ ≤ s.config.maxPlayers.toInt
      omega

/-! ## Every step keeps the invariant -/

/-- What a packet leaves of the state: configuration and peer are as before and the players satisfy
the invariant. -/
structure KeepsTable (s s' : RelayServer) : Prop where
  config : s'.config = s.config
  peer : s'.peer = s.peer
  inv : TableInv s → TableInv s'

theorem KeepsTable.refl (s : RelayServer) : KeepsTable s s :=
  ⟨rfl, rfl, id⟩

theorem KeepsTable.trans {s s' s'' : RelayServer} (h : KeepsTable s s') (h' : KeepsTable s' s'') :
    KeepsTable s s'' :=
  ⟨h'.config.trans h.config, h'.peer.trans h.peer, fun hs => h'.inv (h.inv hs)⟩

theorem KeepsTable.update (s : RelayServer) (a : SystemAddress) {f : Player → Player}
    (haddr : ∀ q, (f q).address = q.address) (hid : ∀ q, (f q).networkId = q.networkId) :
    KeepsTable s { s with players := updateByAddress a f s.players } :=
  ⟨rfl, rfl, fun h => h.update haddr hid⟩

@[simp] theorem account_address (p : Player) (nowMs : Int) :
    (RelayServer.account p nowMs).1.address = p.address := by
  simp only [RelayServer.account, RelayServer.acceptRate, RelayServer.rollRateWindow]
  split <;> split <;> rfl

@[simp] theorem account_networkId (p : Player) (nowMs : Int) :
    (RelayServer.account p nowMs).1.networkId = p.networkId := by
  simp only [RelayServer.account, RelayServer.acceptRate, RelayServer.rollRateWindow]
  split <;> split <;> rfl

theorem keepsTable_bookkeep (s : RelayServer) (packet : Packet) (tickMs : Int) :
    KeepsTable s (s.bookkeep packet tickMs).1 := by
  unfold RelayServer.bookkeep
  split
  · exact KeepsTable.refl s
  · exact KeepsTable.update s _ (fun q => account_address q tickMs)
      (fun q => account_networkId q tickMs)

theorem keepsTable_handleConnectionNotification (s : RelayServer) (packet : Packet)
    (nowMs : Int) : KeepsTable s (s.handleConnectionNotification packet nowMs).1 := by
  cases hfind : findByAddress s.players packet.systemAddress with
  | some self =>
    rw [handleConnectionNotification_known hfind]
    exact KeepsTable.refl s
  | none =>
    by_cases hfull : Int32.ofNat s.players.length ≥ s.config.maxPlayers
    · rw [handleConnectionNotification_full hfind hfull]
      exact KeepsTable.refl s
    · rw [handleConnectionNotification_join hfind hfull]
      refine ⟨rfl, rfl, ?_⟩
      intro h
      exact h.join hfind (h.not_full hfull) rfl

theorem keepsTable_handleCreateNetPlayer (s : RelayServer) (packet : Packet) :
    KeepsTable s (s.handleCreateNetPlayer packet).1 := by
  unfold RelayServer.handleCreateNetPlayer
  split
  · exact KeepsTable.refl s
  · split
    · exact KeepsTable.refl s
    · exact KeepsTable.update s _ (fun _ => rfl) (fun _ => rfl)

theorem keepsTable_handleMotion {minSize : Nat} {messageId : UInt8}
    {store : Vec3 → Vec3 → Player → Player} (s : RelayServer) (packet : Packet)
    (haddr : ∀ v w q, (store v w q).address = q.address)
    (hid : ∀ v w q, (store v w q).networkId = q.networkId) :
    KeepsTable s (s.handleMotion minSize messageId store packet).1 := by
  unfold RelayServer.handleMotion
  split
  · exact KeepsTable.refl s
  · split
    · exact KeepsTable.refl s
    · split
      · exact KeepsTable.refl s
      · exact KeepsTable.update s _ (haddr _ _) (hid _ _)

theorem keepsTable_handleDrop (s : RelayServer) (packet : Packet) :
    KeepsTable s (s.handleDrop packet).1 := by
  unfold RelayServer.handleDrop
  split
  · exact KeepsTable.refl s
  · exact ⟨rfl, rfl, fun h => h.filter _⟩

theorem keepsTable_dispatch (s : RelayServer) (packet : Packet) (nowMs : Int) :
    KeepsTable s (s.dispatch packet nowMs).1 := by
  unfold RelayServer.dispatch
  split
  · exact keepsTable_handleConnectionNotification s packet nowMs
  · exact keepsTable_handleCreateNetPlayer s packet
  · exact keepsTable_handleMotion s packet (fun _ _ _ => rfl) (fun _ _ _ => rfl)
  · exact keepsTable_handleMotion s packet (fun _ _ _ => rfl) (fun _ _ _ => rfl)
  · exact keepsTable_handleDrop s packet
  · exact keepsTable_handleDrop s packet
  · exact KeepsTable.refl s

/-- `PersistAnchor` writes the persisted anchor and nothing else. -/
theorem exists_persistAnchor (s : RelayServer) (writable : Bool) :
    ∃ anchor known, s.persistAnchor writable =
      { s with persistedAnchor := anchor, persistedAnchorKnown := known } := by
  unfold RelayServer.persistAnchor
  split
  · exact ⟨_, _, rfl⟩
  · split
    · exact ⟨_, _, rfl⟩
    · split <;> exact ⟨_, _, rfl⟩

@[simp] theorem persistAnchor_players (s : RelayServer) (writable : Bool) :
    (s.persistAnchor writable).players = s.players := by
  rcases exists_persistAnchor s writable with ⟨_, _, heq⟩
  rw [heq]

@[simp] theorem persistAnchor_config (s : RelayServer) (writable : Bool) :
    (s.persistAnchor writable).config = s.config := by
  rcases exists_persistAnchor s writable with ⟨_, _, heq⟩
  rw [heq]

@[simp] theorem persistAnchor_peer (s : RelayServer) (writable : Bool) :
    (s.persistAnchor writable).peer = s.peer := by
  rcases exists_persistAnchor s writable with ⟨_, _, heq⟩
  rw [heq]

/-- The invariant only reads the players and the configuration. -/
theorem TableInv.congr {s s' : RelayServer} (h : TableInv s) (hplayers : s'.players = s.players)
    (hconfig : s'.config = s.config) : TableInv s' where
  addrs := by simpa [hplayers] using h.addrs
  ids := by simpa [hplayers] using h.ids
  size := by simpa [hplayers, hconfig] using h.size
  range := by simpa [hplayers, hconfig] using h.range

theorem tableInv_of_nil {s : RelayServer} (h : s.players = []) : TableInv s where
  addrs := by simp [h]
  ids := by simp [h]
  size := by simp [h]
  range := by simp [h]

theorem keepsTable_tickPacket (s : RelayServer) (packet : Packet) (tickMs handlerMs : Int) :
    KeepsTable s (s.tickPacket packet tickMs handlerMs).1 := by
  have hbooked := keepsTable_bookkeep s packet tickMs
  simp only [RelayServer.tickPacket]
  split
  · exact hbooked.trans (keepsTable_dispatch _ packet handlerMs)
  · exact hbooked

@[simp] theorem tickEnd_players (s : RelayServer) (nowMs persistMs : Int) (writable : Bool) :
    (s.tickEnd nowMs persistMs writable).players = s.players := by
  unfold RelayServer.tickEnd
  split <;> simp

theorem keepsTable_tickEnd (s : RelayServer) (nowMs persistMs : Int) (writable : Bool) :
    KeepsTable s (s.tickEnd nowMs persistMs writable) := by
  unfold RelayServer.tickEnd
  split
  · exact ⟨by simp, by simp, fun h => h.congr (by simp) (by simp)⟩
  · exact KeepsTable.refl s

/-- What every reachable state satisfies. -/
structure ServerInv (config : Config) (s : RelayServer) : Prop where
  config : s.config = config
  table : TableInv s
  stopped : s.peer = false → s.players = []

theorem ServerInv.keeps {config : Config} {s s' : RelayServer} (h : ServerInv config s)
    (hpeer : s.peer = true) (hkeeps : KeepsTable s s') : ServerInv config s' where
  config := hkeeps.config.trans h.config
  table := hkeeps.inv h.table
  stopped := by
    intro hstopped
    rw [hkeeps.peer, hpeer] at hstopped
    cases hstopped

theorem ServerInv.step {config : Config} {s : RelayServer} (h : ServerInv config s)
    (event : Event) : ServerInv config (step s event).1 := by
  cases hpeer : s.peer with
  | false => simpa [Server.step, hpeer] using h
  | true =>
    simp only [Server.step, hpeer, Bool.not_true, Bool.false_eq_true, if_false]
    cases event with
    | packet packet tickMs handlerMs =>
      exact h.keeps hpeer (keepsTable_tickPacket s packet tickMs handlerMs)
    | tickEnd nowMs persistMs writable =>
      exact h.keeps hpeer (keepsTable_tickEnd s nowMs persistMs writable)
    | stop writable =>
      refine ⟨?_, tableInv_of_nil rfl, fun _ => rfl⟩
      simpa [RelayServer.stop] using h.config

theorem serverInv_run (config : Config) (nowMs : Int) (restored : Option Vec3)
    (events : List Event) :
    ServerInv config (server.state (start config nowMs restored) events) := by
  refine Machine.run_invariant (I := fun _ s _ => ServerInv config s) ?_ ?_ events
  · exact ⟨rfl, tableInv_of_nil rfl, fun _ => rfl⟩
  · intro _ s _ event h
    exact h.step event

/-- A stopped server does nothing. -/
theorem run_of_not_peer {s : RelayServer} (hpeer : s.peer = false) (events : List Event) :
    server.run s events = (s, []) := by
  induction events with
  | nil => rfl
  | cons event events ih =>
    have hstep : step s event = (s, []) := by simp [step, hpeer]
    simp [Machine.run_cons, hstep, ih]

/-- In every state a server started from its environment reaches, the table invariant holds and
the loop of `AllocateNetworkId` returns the least id from 1 on that no player holds. -/
theorem playerTable_invariant (stof : String → Option UInt32) (env : Env) (nowMs : Int)
    (restored : Option Vec3) (events : List Event) :
    let s := server.state (start (Config.fromEnvironment stof env) nowMs restored) events
    TableInv s ∧
      ∃ id, AllocateNetworkIdLoop s.players kFirstClientNetworkId id ∧ 1 ≤ id ∧
        (∀ p ∈ s.players, p.networkId ≠ id) ∧
        ∀ j, 1 ≤ j → j < id → ∃ p ∈ s.players, p.networkId = j := by
  intro s
  have h := serverInv_run (Config.fromEnvironment stof env) nowMs restored events
  refine ⟨h.table, allocateNetworkId s.players, ?_⟩
  -- The slots are capped at 64, so the candidates stay far below the end of `int`.
  have hlen : s.players.length < 2 ^ 31 - 1 := by
    have hsize : s.players.length ≤ s.config.maxPlayers.toInt.toNat := h.table.size
    have hconfig : s.config = Config.fromEnvironment stof env := h.config
    have hmax := (fromEnvironment_maxPlayers stof env).2
    rw [← hconfig, Int32.le_iff_toInt_le] at hmax
    have h64 : (64 : Int32).toInt = 64 := rfl
    omega
  have hpos : 1 ≤ allocateNetworkId s.players := by
    rw [Int32.le_iff_toInt_le]
    exact (toInt_allocateNetworkId hlen).1
  refine ⟨allocateNetworkId_returns hlen, hpos, allocateNetworkId_free hlen, ?_⟩
  intro j hj hlt
  exact allocateNetworkId_least hlen hj hlt

end Server
end Crossover
