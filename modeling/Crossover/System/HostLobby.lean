import Crossover.System.Attendance
import Crossover.System.Hosting

/-!
# HostLobby — the host keeps the same table

A hosting mod has a connection for every client that has joined and a player for every client that
has spawned.  It tells everybody what the dedicated server only tells those who have spawned, and
its roster names its own hero and the receiver as well.
-/

namespace Crossover
namespace Attendance

open Wire Server Lobby History
open Mod.Session (broadcastTo clientsExcept LobbyListener Follows)

/-- Id 0 is the host's own. -/
abbrev hostAudience : Audience SystemAddress Int32 Int32 :=
  Audience.everybody fun id => id = 0

/-! ## The connections -/

def connectionOf (m : LobbyMember) : Mod.Connection where
  address := m.addr
  networkId := m.id

/-- The host's own connection comes first. -/
def hostConnections (bound : SystemAddress) (T : List LobbyMember) : List Mod.Connection :=
  { address := bound, networkId := 0 } :: T.map connectionOf

/-- The members are clients: none of them has the host's id or one of these addresses. -/
structure Outside (reserved : List SystemAddress) (T : List LobbyMember) : Prop where
  wf : WellFormed T
  ids : ∀ m ∈ T, m.id ≠ 0
  addrs : ∀ m ∈ T, m.addr ∉ reserved

section Connections

variable {reserved : List SystemAddress} {bound : SystemAddress} {T : List LobbyMember}

theorem clientsExcept_hostConnections (h : Outside reserved T)
    (hunassigned : unassignedSystemAddress ∈ reserved) (id : Int32) :
    clientsExcept (hostConnections bound T) id = (without T id).map connectionOf := by
  have hhead : ∀ rest, clientsExcept ({ address := bound, networkId := 0 } :: rest) id =
      clientsExcept rest id := by
    intro rest
    simp [clientsExcept]
  rw [hostConnections, hhead, clientsExcept, without, List.filter_map]
  congr 1
  apply List.filter_congr
  intro m hm
  have hid := h.ids m hm
  have haddr : m.addr ≠ unassignedSystemAddress := by
    rintro heq
    exact h.addrs m hm (heq ▸ hunassigned)
  by_cases hm' : m.id = id <;> simp [connectionOf, hm', haddr, hid]

theorem notes_broadcastTo (h : Outside reserved T)
    (hunassigned : unassignedSystemAddress ∈ reserved) {m : Message} {said : LobbyNote}
    (hm : m.Countable) (hsaid : messageNote m = some said) (id : Int32) :
    notes (broadcastTo (hostConnections bound T) id m) = Audience.tellOthers T id said := by
  rw [broadcastTo, clientsExcept_hostConnections h hunassigned, Audience.tellOthers]
  induction without T id with
  | nil => rfl
  | cons q rest ih =>
    have hfirst := notes_singleton hm hsaid q.addr
    rw [List.map_cons, List.map_cons, List.map_cons, ← List.singleton_append, notes_append, ih]
    exact congrArg (· ++ _) hfirst

theorem sendsMessage_broadcastTo {connections : List Mod.Connection} {m : Message}
    (hm : m.Countable) (hne : m ≠ .connectionNotification) (id : Int32) :
    ∀ call ∈ broadcastTo connections id m, SendsMessage call := by
  intro call hcall
  rcases List.mem_map.1 hcall with ⟨connection, _, rfl⟩
  exact sendsMessage_sendTo hm hne connection.address

/-- The connection a roster goes to. -/
theorem find_by_id (h : Outside reserved T) (hunassigned : unassignedSystemAddress ∈ reserved)
    {m : LobbyMember} (hm : m ∈ T) :
    (hostConnections bound T).find? (fun connection =>
      connection.networkId == m.id && connection.address != unassignedSystemAddress) =
        some (connectionOf m) := by
  have hzero : ¬ (0 : Int32) = m.id := fun heq => h.ids m hm heq.symm
  have haddr : ∀ q ∈ T, q.addr ≠ unassignedSystemAddress := by
    rintro q hq heq
    exact h.addrs q hq (heq ▸ hunassigned)
  rw [hostConnections, List.find?_cons_of_neg (by simp [hzero]), List.find?_map]
  have hfind : T.find? ((fun connection : Mod.Connection => connection.networkId == m.id &&
      connection.address != unassignedSystemAddress) ∘ connectionOf) = some m := by
    rw [List.find?_eq_some_iff_append]
    rcases List.mem_iff_append.1 hm with ⟨before, after, hsplit⟩
    refine ⟨by simp [connectionOf, haddr m hm], before, after, hsplit, ?_⟩
    intro q hq
    have hne : ¬ q.id = m.id := by
      intro heq
      have hids := h.wf.ids
      rw [hsplit, List.map_append, List.map_cons, List.nodup_append] at hids
      exact hids.2.2 _ (List.mem_map_of_mem hq) _ List.mem_cons_self heq
    simp [connectionOf, hne]
  rw [hfind]
  rfl

/-- The connection of a lost address. -/
theorem find_by_address (h : Outside reserved T) (hbound : bound ∈ reserved) {m : LobbyMember}
    (hm : m ∈ T) :
    (hostConnections bound T).find? (fun connection => connection.address == m.addr) =
      some (connectionOf m) := by
  have hhead : ¬ bound = m.addr := fun heq => h.addrs m hm (heq ▸ hbound)
  rw [hostConnections, List.find?_cons_of_neg (by simp [hhead]), List.find?_map]
  have hfind : T.find? ((fun connection : Mod.Connection => connection.address == m.addr) ∘
      connectionOf) = some m := memberAt_of_mem h.wf hm rfl
  rw [hfind]
  rfl

theorem erase_hostConnections (h : Outside reserved T) {m : LobbyMember} (hm : m ∈ T) :
    ((hostConnections bound T).eraseP fun connection => connection.networkId == m.id) =
      hostConnections bound (without T m.id) := by
  have hzero : ¬ (0 : Int32) = m.id := fun heq => h.ids m hm heq.symm
  have herase : (T.eraseP ((fun connection : Mod.Connection => connection.networkId == m.id) ∘
      connectionOf)) = without T m.id := h.wf.eraseP_id m.id
  rw [hostConnections, List.eraseP_cons_of_neg (by simp [hzero]), List.eraseP_map, herase]
  rfl

/-- The host searches from 0 on, which is its own, so it finds what the server finds. -/
theorem getFreeNetworkId_hostConnections (hlen : T.length < 2 ^ 31 - 1) :
    Mod.Session.getFreeNetworkId (hostConnections bound T) = nextId T := by
  have hids : (hostConnections bound T).map Mod.Connection.networkId = 0 :: T.map Member.id := by
    simp [hostConnections, connectionOf, Function.comp_def]
  have hcount : (hostConnections bound T).length = T.length + 1 := by simp [hostConnections]
  rw [Mod.Session.getFreeNetworkId, hids, hcount, FirstFree.search, if_pos (by simp), nextId]
  apply FirstFree.search_congr
  intro k hk
  have hne : ¬ Int32.ofNat (1 + k) = 0 := by
    intro heq
    have htoInt := congrArg Int32.toInt heq
    rw [Int32.toInt_ofNat_of_lt (by omega)] at htoInt
    have hzero : (0 : Int32).toInt = 0 := rfl
    omega
  have hstart : (0 : Int32) + 1 = Int32.ofNat 1 := rfl
  rw [hstart, FirstFree.iterate_int32]
  simp only [List.mem_cons, hne, false_or]

end Connections

/-! ## The host's state -/

section Host

variable {σ : Type}

/-- The session hosts the clients of the table: it holds those that have spawned. -/
structure Hosts (E : Mod.Engine σ) (Holds : σ → Int → Int32 → Prop) (own bound : SystemAddress)
    (T : List LobbyMember) (s : Mod.Session σ) : Prop where
  active : s.network.active = true
  quitCallbacks : s.network.quitCallbacks = false
  address : E.systemAddress s.network.settings.ip s.network.settings.port = own
  connections : s.network.connections = hostConnections bound T
  holds : ∃ l : LobbyListener, Follows Holds s l ∧ l.own = some 0 ∧ l.Distinct ∧
    ∀ e, e ∈ l.table ↔ ∃ q ∈ T, q.present = true ∧ q.entry = e

/-- The host has done with its table what the act says, and told its members about it. -/
structure HostSteps (E : Mod.Engine σ) (Holds : σ → Int → Int32 → Prop)
    (own bound : SystemAddress) (T : List LobbyMember) (act : LobbyAct) (s s' : Mod.Session σ)
    (sent : List PeerCall) : Prop where
  hosts : Hosts E Holds own bound (apply T act) s'
  calls : s'.calls = s.calls ++ sent
  sends : ∀ call ∈ sent, SendsMessage call
  serves : hostAudience.Serves T (notes sent) act

variable {E : Mod.Engine σ} {Holds : σ → Int → Int32 → Prop} {own bound : SystemAddress}
  {reserved : List SystemAddress} {T : List LobbyMember} {s : Mod.Session σ}

/-- What the table says about the players is about those who are present. -/
theorem Hosts.same (h : Hosts E Holds own bound T s) {T' : List LobbyMember}
    {s' : Mod.Session σ}
    (hnetwork : s'.network = { s.network with connections := hostConnections bound T' })
    (hfollows : ∀ l, Follows Holds s l → Follows Holds s' l)
    (hpresent : ∀ e, (∃ q ∈ T, q.present = true ∧ q.entry = e) ↔
      ∃ q ∈ T', q.present = true ∧ q.entry = e) : Hosts E Holds own bound T' s' := by
  rcases h.holds with ⟨l, hl, hown, hdistinct, htable⟩
  refine ⟨?_, ?_, ?_, ?_, l, hfollows l hl, hown, hdistinct, fun e => (htable e).trans (hpresent e)⟩
  · rw [hnetwork]
    exact h.active
  · rw [hnetwork]
    exact h.quitCallbacks
  · rw [hnetwork]
    exact h.address
  · rw [hnetwork]

/-- The host's own hero is in the game. -/
theorem Hosts.hero (hE : E.Lawful Holds) (h : Hosts E Holds own bound T s) :
    ∃ p creature, s.localNetPlayer = some p ∧ p.networkId = 0 ∧
      s.getCreatureFromLocalId E p.localId = some creature := by
  rcases h.holds with ⟨l, hl, hown, _⟩
  rcases hl.localNetPlayer with ⟨p, d, hp, hid, hheld⟩
  rcases hE.lookup _ _ _ hheld with ⟨player, creature, hplayer, hcreature, _⟩
  refine ⟨p, creature, hp, Option.some.inj (hid.symm.trans hown), ?_⟩
  simp [Mod.Session.getCreatureFromLocalId, hplayer, hcreature]

theorem host_join (hE : E.Lawful Holds) (h : Hosts E Holds own bound T s) {a : SystemAddress}
    (hfresh : ∀ q ∈ T, q.addr ≠ a) (hlen : T.length < 2 ^ 31 - 1) :
    ∃ s' sent, s.receive E a .connectionNotification = .ok s' ∧
      HostSteps E Holds own bound T (.join a (nextId T) 0) s s' sent := by
  rcases h.hero hE with ⟨p, creature, hp, _, hcreature⟩
  have hid : Mod.Session.getFreeNetworkId s.network.connections = nextId T := by
    rw [h.connections, getFreeNetworkId_hostConnections hlen]
  let connections := s.network.connections ++ [{ address := a, networkId := nextId T }]
  let joined : Mod.Session σ := { s with network := { s.network with connections := connections } }
  rcases Mod.Session.connectionNotification_host (E := E) (s := joined) h.active hp hcreature
    (nextId T) a with ⟨s', hok, hsends⟩
  have hreceive : s.receive E a .connectionNotification = .ok s' := by
    simp only [Mod.Session.receive, Mod.Session.handleConnectionNotification, hid]
    exact hok
  refine ⟨s', _, hreceive, ⟨?_, hsends.calls, ?_, ?_⟩⟩
  · refine h.same ?_ ?_ ?_
    · rw [hsends.network]
      simp [joined, connections, h.connections, hostConnections, apply, connectionOf]
    · intro l hl
      exact hl.congr hsends.localNetPlayer hsends.netPlayers hsends.engine
    · intro e
      simp [apply]
  · intro call hcall
    obtain rfl := List.mem_singleton.1 hcall
    exact sendsMessage_sendTo (by trivial) (by simp) _
  · rw [notes_singleton (m := .createLocalNetPlayer _ _) trivial rfl]
    refine Audience.everybody_join 0 (fun q hq => ⟨hfresh q hq, ?_⟩) (nextId_ne_zero hlen)
    intro heq
    exact (nextId_returns hlen).not_used (heq ▸ List.mem_map_of_mem hq)

/-- Whoever announces itself is not held yet. -/
theorem not_mem_ids {l : LobbyListener} (hT : WellFormed T)
    (htable : ∀ e, e ∈ l.table ↔ ∃ q ∈ T, q.present = true ∧ q.entry = e) {m : LobbyMember}
    (hm : m ∈ T) (habsent : m.present = false) : m.id ∉ l.ids := by
  intro hmem
  rcases List.mem_map.1 hmem with ⟨e, he, hid⟩
  rcases (htable e).1 he with ⟨q, hq, hp, rfl⟩
  rw [hT.eq_of_id hq hm hid, habsent] at hp
  cases hp

/-- Nobody is held twice, so there are no more players than clients. -/
theorem length_table_le {l : LobbyListener} (hdistinct : l.Distinct)
    (htable : ∀ e ∈ l.table, ∃ q ∈ T, q.present = true ∧ q.entry = e) :
    l.table.length ≤ T.length := by
  have hsub : l.ids ⊆ T.map Member.id := by
    intro id hid
    rcases List.mem_map.1 hid with ⟨e, he, rfl⟩
    rcases htable e he with ⟨q, hq, _, rfl⟩
    exact List.mem_map_of_mem hq
  have hlen := List.Nodup.length_le_of_subset hdistinct.nodup hsub
  simpa [Listener.ids] using hlen

theorem host_spawn (hE : E.Lawful Holds) (h : Hosts E Holds own bound T s)
    (hout : Outside reserved T) (hunassigned : unassignedSystemAddress ∈ reserved)
    (hlen : T.length < 2 ^ 31 - 1) {m : LobbyMember} (hm : m ∈ T) (habsent : m.present = false)
    (defGlobalIndex : Int32) (position : Vec3) :
    ∃ s' sent, s.receive E m.addr (.createNetPlayer m.id defGlobalIndex position) = .ok s' ∧
      HostSteps E Holds own bound T (.announce m.id defGlobalIndex) s s' sent := by
  rcases h.holds with ⟨l, hl, hown, hdistinct, htable⟩
  have hother : l.own ≠ some m.id := by
    rw [hown]
    exact fun heq => hout.ids m hm (Option.some.inj heq).symm
  have hdistinct' := hdistinct.create defGlobalIndex hother (not_mem_ids hout.wf htable hm habsent)
  have htable' : ∀ e, e ∈ (l.hear (.create m.id defGlobalIndex)).table ↔
      ∃ q ∈ apply T (.announce m.id defGlobalIndex), q.present = true ∧ q.entry = e := by
    intro e
    rw [hout.wf.present_announce hm habsent, ← htable e]
    exact List.mem_append.trans (or_congr_right List.mem_singleton)
  rcases hl.create hE m.id defGlobalIndex position with ⟨s', hok, hfollows, hnetwork⟩
  rcases hl.localNetPlayer with ⟨p, _, hp, hid, _⟩
  have hzero : p.networkId = 0 := Option.some.inj (hid.symm.trans hown)
  rcases hE.created s.engine s.getFreeLocalId s.getFreeLocalId_nonneg with ⟨player, hplayer⟩
  rcases Mod.Session.createNetPlayer_host h.active hp hzero hplayer hok with
    ⟨s₁, hquiet, hcalls, hroster⟩
  -- The roster is written when the newcomer is in the vector.
  have hfollows₁ : Follows Holds s₁ (l.hear (.create m.id defGlobalIndex)) :=
    hfollows.congr hquiet.localNetPlayer.symm hquiet.netPlayers.symm hquiet.engine.symm
  have hnetwork₁ : s₁.network = s.network := hquiet.network.symm.trans hnetwork
  have hfind := @find_by_id _ bound _ hout hunassigned _ hm
  rw [← h.connections, ← hnetwork₁] at hfind
  rcases Mod.Session.sends_broadcastCreateNetPlayers hE hfollows₁ hdistinct' hown
    (by rw [hnetwork₁, h.active]) hfind with ⟨d, entries, hkeys, hsends⟩
  rw [← hroster] at hsends
  have hcount : (Message.createNetPlayers entries).Countable := by
    have hlength := congrArg List.length hkeys
    have hbound := length_table_le hdistinct' fun e he => (htable' e).1 he
    rw [List.length_map, List.length_cons] at hlength
    rw [apply, List.length_map] at hbound
    simp only [Message.Countable]
    omega
  refine ⟨s', _, hok, ⟨⟨?_, ?_, ?_, ?_, _, hfollows, hown, hdistinct', htable'⟩,
    hsends.calls.trans (by rw [hcalls, List.append_assoc]), ?_, ?_⟩⟩
  · rw [hnetwork, h.active]
  · rw [hnetwork, h.quitCallbacks]
  · rw [hnetwork, h.address]
  · rw [hnetwork, h.connections, hostConnections, hostConnections,
      map_announce fun _ _ => rfl]
  · intro call hcall
    rcases List.mem_append.1 hcall with hcall | hcall
    · exact sendsMessage_broadcastTo (m := .createNetPlayer _ _ _) trivial (by simp) _ call hcall
    · obtain rfl := List.mem_singleton.1 hcall
      exact sendsMessage_sendTo hcount (by simp) _
  · rw [notes_append, h.connections,
      notes_broadcastTo hout hunassigned (m := .createNetPlayer _ _ _) trivial rfl,
      notes_singleton hcount rfl]
    have hentries : (entries.map fun entry => (entry.networkId, entry.defGlobalIndex)) =
        (0, d) :: (l.hear (.create m.id defGlobalIndex)).table := hkeys
    rw [hentries]
    refine Audience.everybody_announce hout.wf hm habsent defGlobalIndex (by simp) ?_ ?_
    · intro e he
      rcases List.mem_cons.1 he with rfl | he
      · exact Or.inl rfl
      · exact Or.inr ((htable' e).1 he)
    · intro q hq hpresent
      refine List.mem_cons_of_mem _ (List.mem_append_left _ ?_)
      exact (htable q.entry).2 ⟨q, hq, hpresent, rfl⟩

/-- Motion is relayed, also for a client that has not spawned. -/
theorem host_motion (h : Hosts E Holds own bound T s) (hout : Outside reserved T)
    (hunassigned : unassignedSystemAddress ∈ reserved) {id : Int32} {act : LobbyAct}
    (hact : act = .idle ∨ act = .relay id) {m : Message} (hm : m.Countable)
    (hsaid : messageNote m = some (.relay id)) {s' : Mod.Session σ}
    (hcalls : s'.calls = s.calls ++ broadcastTo s.network.connections id m)
    (hsame : s'.localNetPlayer = s.localNetPlayer ∧ s'.network = s.network ∧
      s'.engine = s.engine ∧
      s'.netPlayers.map Mod.NetPlayer.ids = s.netPlayers.map Mod.NetPlayer.ids) :
    HostSteps E Holds own bound T act s s'
      (broadcastTo s.network.connections id m) := by
  have htable : apply T act = T := by rcases hact with rfl | rfl <;> rfl
  refine ⟨?_, hcalls, ?_, ?_⟩
  · rw [htable]
    refine h.same ?_ ?_ fun _ => Iff.rfl
    · rw [hsame.2.1, ← h.connections]
    · intro l hl
      rcases hl.motion hsame with ⟨_, heq, hfollows, _⟩
      rw [Except.ok.inj heq]
      exact hfollows
  · refine sendsMessage_broadcastTo hm ?_ id
    rintro rfl
    cases hsaid
  · rw [h.connections, notes_broadcastTo hout hunassigned hm hsaid]
    exact Audience.serves_relay hostAudience hout.wf id id hact

/-- A lost client's player goes first, then its connection. -/
theorem host_leave (hE : E.Lawful Holds) (h : Hosts E Holds own bound T s)
    (hout : Outside reserved T) (hunassigned : unassignedSystemAddress ∈ reserved)
    (hown : own ∈ reserved) (hbound : bound ∈ reserved) {m : LobbyMember} (hm : m ∈ T)
    {packet : Packet} (haddr : packet.systemAddress = m.addr) :
    ∃ s' sent, s.handleLoss E 0 packet = .ok s' ∧
      HostSteps E Holds own bound T (.leave m.id) s s' sent := by
  rcases h.holds with ⟨l, hl, hself, hdistinct, htable⟩
  have hid : s.getNetworkIdFromAddress E packet.systemAddress = m.id := by
    have hne : ¬ m.addr = own := fun heq => hout.addrs m hm (heq ▸ hown)
    have hfind := find_by_address hout hbound hm
    rw [← h.connections] at hfind
    simp only [Mod.Session.getNetworkIdFromAddress, haddr, h.address, hne, if_false, hfind]
    rfl
  have hother : l.own ≠ some m.id := by
    rw [hself]
    exact fun heq => hout.ids m hm (Option.some.inj heq).symm
  rcases hl.destroy hE hother with ⟨s₁, hok, hfollows, hnetwork⟩
  let s' : Mod.Session σ :=
    { s₁ with network := { s₁.network with connections := hostConnections bound (without T m.id) } }
  have hresult : s.handleLoss E 0 packet = .ok s' := by
    have herase := @erase_hostConnections _ bound _ hout _ hm
    rw [← h.connections, ← hnetwork] at herase
    have hquit : s₁.network.quitCallbacks = false := by rw [hnetwork, h.quitCallbacks]
    simp only [Mod.Session.handleLoss, hid, Mod.Session.removeConnection, hok, herase, hquit,
      Bool.false_and, Bool.false_eq_true, if_false, s']
  have hhosts : Hosts E Holds own bound (apply T (.leave m.id)) s' := by
    refine ⟨?_, ?_, ?_, rfl, _, hfollows.congr rfl rfl rfl, ?_, hdistinct.destroy m.id, ?_⟩
    · simp only [s', hnetwork, h.active]
    · simp only [s', hnetwork, h.quitCallbacks]
    · simp only [s', hnetwork, h.address]
    · rw [Listener.hear_own]
      exact hself
    · intro e
      rw [hdistinct.mem_table_destroy, apply, present_without, htable e]
  have hpresent : m.id ∈ l.ids ↔ m.present = true := by
    constructor
    · intro hmem
      rcases List.mem_map.1 hmem with ⟨e, he, heq⟩
      rcases (htable e).1 he with ⟨q, hq, hp, rfl⟩
      rw [← hout.wf.eq_of_id hq hm heq]
      exact hp
    · intro hp
      exact List.mem_map_of_mem (f := Prod.fst) ((htable m.entry).2 ⟨m, hm, hp, rfl⟩)
  have hlookup := hl.lookup hother
  have hserves : hostAudience.Serves T _ (.leave m.id) := Audience.everybody_leave hout.wf hm
  cases hp : m.present with
  | true =>
    rcases hl.find_isSome (hpresent.2 hp) with ⟨netPlayer, hfind⟩
    simp only [hfind] at hlookup
    rcases hl.held (List.mem_of_find?_eq_some hfind) with ⟨d, hheld⟩
    rcases Mod.Session.getCreatureFromNetworkId_of_held hE hlookup hheld with
      ⟨creature, hcreature, _⟩
    rcases hl.localNetPlayer with ⟨p, _, hlocal, hzero, _⟩
    have hcalls := Mod.Session.destroyNetPlayer_host h.active hlocal
      (Option.some.inj (hzero.symm.trans hself)) hcreature hok
    refine ⟨s', _, hresult, hhosts, hcalls, ?_, ?_⟩
    · exact sendsMessage_broadcastTo (m := .destroyNetPlayer _) trivial (by simp) _
    · rw [hp, if_pos rfl] at hserves
      rw [h.connections, notes_broadcastTo hout hunassigned (m := .destroyNetPlayer m.id) trivial
        rfl]
      exact hserves
  | false =>
    -- Somebody who has not spawned has no creature, so nobody hears that it has gone.
    have hnot : m.id ∉ l.ids := fun hmem => by
      rw [hpresent.1 hmem] at hp
      cases hp
    simp only [hl.find_eq_none hnot] at hlookup
    have hnone : s.getCreatureFromNetworkId E m.id = none := by
      simp [Mod.Session.getCreatureFromNetworkId, Mod.Session.getCreatureFromLocalId, hlookup,
        hE.getPlayer_neg]
    have hsame := Mod.Session.destroyNetPlayer_of_none hnone
    obtain rfl := Except.ok.inj (hok.symm.trans hsame)
    refine ⟨s', [], hresult, hhosts, (List.append_nil _).symm, by simp, ?_⟩
    rw [hp, if_neg (by simp)] at hserves
    exact hserves

end Host

end Attendance
end Crossover
