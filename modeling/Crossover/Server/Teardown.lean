import Crossover.Server.Roster

/-!
# Teardown — when a lost connection takes its player with it

`HandleDrop` removes the record, frees the id and reports the departure.  `Tick` gets there only if
the flood guard lets the notification through: the transport's own packets are counted like the
client's, so a client that has used up its second leaves a ghost behind.
-/

namespace Crossover
namespace Server

open Wire History

/-- The packet tells that its sender is gone. -/
def IsDrop (packet : Packet) : Prop :=
  packet.kind = .disconnectionNotification ∨ packet.kind = .connectionLost

instance (packet : Packet) : Decidable (IsDrop packet) :=
  inferInstanceAs (Decidable (_ ∨ _))

/-- The flood guard lets the player's next packet through. -/
def RateAdmits (p : Player) (tickMs : Int) : Prop :=
  tickMs - p.rateWindowStartMs ≥ 1000 ∨ p.rateWindowCount < kMaxPacketsPerSecond

instance (p : Player) (tickMs : Int) : Decidable (RateAdmits p tickMs) :=
  inferInstanceAs (Decidable (_ ∨ _))

/-- What the loss of a player's connection has to lead to. -/
structure TornDown (s : RelayServer) (p : Player) (result : RelayServer × List PeerCall) :
    Prop where
  gone : ∀ q ∈ result.1.players, q.address ≠ p.address
  idFree : p.networkId ∉ result.1.players.map Player.networkId
  reported : p.spawned = true → ∀ q ∈ s.players, q ≠ p → q.spawned = true →
    Message.sendTo (.destroyNetPlayer p.networkId) q.address ∈ result.2

/-! ## The flood guard -/

theorem account_accepts (p : Player) (tickMs : Int) :
    (RelayServer.account p tickMs).2 = true ↔ RateAdmits p tickMs := by
  by_cases hwindow : tickMs - p.rateWindowStartMs ≥ 1000
  · have hmax : ¬ 0 + 1 > kMaxPacketsPerSecond := by decide
    simp [RelayServer.account, RelayServer.acceptRate, RelayServer.rollRateWindow, RateAdmits,
      hwindow, hmax]
  · by_cases hcount : p.rateWindowCount + 1 > kMaxPacketsPerSecond
    · have hfull : ¬ p.rateWindowCount < kMaxPacketsPerSecond := by omega
      simp [RelayServer.account, RelayServer.acceptRate, RelayServer.rollRateWindow, RateAdmits,
        hwindow, hcount, hfull]
    · have hroom : p.rateWindowCount < kMaxPacketsPerSecond := by omega
      simp [RelayServer.account, RelayServer.acceptRate, RelayServer.rollRateWindow, RateAdmits,
        hwindow, hcount, hroom]

/-! ## One notification -/

section Drop

variable {s : RelayServer} {packet : Packet} {p : Player} {tickMs handlerMs : Int}

theorem dispatch_drop (hdrop : IsDrop packet) (s : RelayServer) (nowMs : Int) :
    s.dispatch packet nowMs = s.handleDrop packet := by
  rcases hdrop with hkind | hkind <;> simp [RelayServer.dispatch, hkind]

theorem bookkeep_of_find (hfind : findByAddress s.players packet.systemAddress = some p) :
    s.bookkeep packet tickMs =
      let players := updateByAddress packet.systemAddress
        (fun p => (RelayServer.account p tickMs).1) s.players
      ({ s with players := players }, (RelayServer.account p tickMs).2) := by
  simp [RelayServer.bookkeep, hfind]

/-- The bookkeeping leaves the record of the sender where it was. -/
theorem find_bookkeep (hfind : findByAddress s.players packet.systemAddress = some p)
    (tickMs : Int) :
    findByAddress (s.bookkeep packet tickMs).1.players packet.systemAddress =
      some (RelayServer.account p tickMs).1 := by
  have haddr := findByAddress_address hfind
  rw [bookkeep_of_find hfind, findByAddress_updateByAddress _ (fun q => account_address q tickMs),
    hfind]
  simp [haddr]

/-- A packet from an unknown address leaves no trace in the bookkeeping. -/
theorem bookkeep_of_stranger (hfind : findByAddress s.players packet.systemAddress = none)
    (tickMs : Int) : s.bookkeep packet tickMs = (s, true) := by
  simp only [RelayServer.bookkeep]
  rw [hfind]

/-- A record the handler finds was there before the bookkeeping. -/
theorem exists_of_find_bookkeep {self : Player}
    (h : findByAddress (s.bookkeep packet tickMs).1.players packet.systemAddress = some self) :
    ∃ before, findByAddress s.players packet.systemAddress = some before ∧
      self = (RelayServer.account before tickMs).1 := by
  cases hfind : findByAddress s.players packet.systemAddress with
  | none =>
    rw [bookkeep_of_stranger hfind, hfind] at h
    cases h
  | some before =>
    rw [find_bookkeep hfind] at h
    exact ⟨before, rfl, (Option.some.inj h).symm⟩

theorem step_admitted {config : Config} (hinv : ServerInv config s)
    (hfind : findByAddress s.players packet.systemAddress = some p)
    (hadmits : RateAdmits p tickMs) :
    step s (.packet packet tickMs handlerMs) =
      (s.bookkeep packet tickMs).1.dispatch packet handlerMs := by
  have haccept : (s.bookkeep packet tickMs).2 = true := by
    rw [bookkeep_of_find hfind]
    exact (account_accepts p tickMs).2 hadmits
  cases hpeer : s.peer with
  | true => simp [step, hpeer, RelayServer.tickPacket, haccept]
  | false =>
    rw [hinv.stopped hpeer] at hfind
    cases hfind

/-- A refused notification leaves the record of its sender. -/
theorem not_tornDown_of_refused (hfind : findByAddress s.players packet.systemAddress = some p)
    (hrefused : ¬ RateAdmits p tickMs) :
    ¬ TornDown s p (s.tickPacket packet tickMs handlerMs) := by
  intro h
  have haddr := findByAddress_address hfind
  have hfind' := find_bookkeep hfind tickMs
  have haccept : (s.bookkeep packet tickMs).2 = false := by
    rw [bookkeep_of_find hfind, Bool.eq_false_iff]
    exact fun htrue => hrefused ((account_accepts p tickMs).1 htrue)
  have hstate : (s.tickPacket packet tickMs handlerMs).1 = (s.bookkeep packet tickMs).1 := by
    simp [RelayServer.tickPacket, haccept]
  have hgone := h.gone (RelayServer.account p tickMs).1 (hstate ▸ findByAddress_mem hfind')
  exact hgone (account_address p tickMs)

/-- An admitted notification tears its sender's record down. -/
theorem tornDown_of_admitted (hinv : TableInv s) (hdrop : IsDrop packet)
    (hfind : findByAddress s.players packet.systemAddress = some p)
    (hadmits : RateAdmits p tickMs) : TornDown s p (s.tickPacket packet tickMs handlerMs) := by
  have haddr := findByAddress_address hfind
  have hinv' := (keepsTable_bookkeep s packet tickMs).inv hinv
  have hfind' := find_bookkeep hfind tickMs
  have haccept : (s.bookkeep packet tickMs).2 = true := by
    rw [bookkeep_of_find hfind]
    exact (account_accepts p tickMs).2 hadmits
  have hresult : s.tickPacket packet tickMs handlerMs =
      (s.bookkeep packet tickMs).1.handleDrop packet := by
    simp [RelayServer.tickPacket, haccept, dispatch_drop hdrop]
  rw [hresult, handleDrop_eq hfind']
  refine ⟨?_, ?_, ?_⟩
  · intro q hq heq
    rcases List.mem_filter.1 hq with ⟨hmem, hid⟩
    have hsame : q = (RelayServer.account p tickMs).1 :=
      hinv'.eq_of_address hmem (findByAddress_mem hfind') (by simpa using heq)
    simp [hsame] at hid
  · intro hmem
    rcases List.mem_map.1 hmem with ⟨q, hq, hid⟩
    simp [hid] at hq
  · -- The others are the same records before and after the bookkeeping.
    intro hspawned q hq hne hqspawned
    have hqaddr : q.address ≠ packet.systemAddress := fun heq =>
      hne (hinv.eq_of_address hq (findByAddress_mem hfind) (heq.trans haddr.symm))
    have hqid : q.networkId ≠ p.networkId := fun heq =>
      hne (hinv.eq_of_networkId hq (findByAddress_mem hfind) heq)
    have hqfind : findByAddress (s.bookkeep packet tickMs).1.players q.address = some q := by
      rw [bookkeep_of_find hfind,
        findByAddress_updateByAddress _ (fun r => account_address r tickMs),
        findByAddress_of_mem hinv.addrs hq]
      simp [hqaddr]
    have hmem := findByAddress_mem hqfind
    have hspawned' : (RelayServer.account p tickMs).1.spawned = true := by
      have hmember := congrArg Lobby.Member.present (account_member p tickMs)
      exact hmember.trans hspawned
    simp only [hspawned', if_true, account_networkId]
    apply List.mem_map.2
    refine ⟨q, ?_, rfl⟩
    simp [recipients, hmem, hqid, hqspawned]

end Drop

/-! ## Runs -/

/-- If the event loses the connection of a player, the flood guard admits it. -/
def DropAdmitted (s : RelayServer) : Event → Prop
  | .packet packet tickMs _ =>
      IsDrop packet → ∀ p, findByAddress s.players packet.systemAddress = some p →
        RateAdmits p tickMs
  | _ => True

/-- If the event loses the connection of a player, the step tears the player down. -/
def DropTearsDown (s : RelayServer) : Event → Prop
  | .packet packet tickMs handlerMs =>
      IsDrop packet → ∀ p, findByAddress s.players packet.systemAddress = some p →
        TornDown s p (step s (.packet packet tickMs handlerMs))
  | _ => True

/-- The event tells that the connection to an address is gone. -/
def DropFrom (address : SystemAddress) : Event → Prop
  | .packet packet _ _ => packet.systemAddress = address ∧ IsDrop packet
  | _ => False

/-- The event is a join request from an address. -/
def JoinFrom (address : SystemAddress) : Event → Prop
  | .packet packet _ _ => packet.systemAddress = address ∧ packet.kind = .connectionNotification
  | _ => False

/-- The address asked to join and its connection has not been lost since. -/
def Connected (events : List Event) (address : SystemAddress) : Prop :=
  ∃ before join after, events = before ++ join :: after ∧ JoinFrom address join ∧
    ∀ event ∈ after, ¬ DropFrom address event

/-- For a reachable state the two conditions on an event are the same. -/
theorem dropAdmitted_iff {config : Config} {s : RelayServer} (hinv : ServerInv config s)
    (event : Event) : DropAdmitted s event ↔ DropTearsDown s event := by
  cases event with
  -- A known address means that there are records, so the server has not been stopped.
  | packet packet tickMs handlerMs =>
    have hstep : ∀ p, findByAddress s.players packet.systemAddress = some p →
        step s (.packet packet tickMs handlerMs) = s.tickPacket packet tickMs handlerMs := by
      intro p hfind
      cases hpeer : s.peer with
      | true => simp [step, hpeer]
      | false =>
        rw [hinv.stopped hpeer] at hfind
        cases hfind
    constructor
    · intro h hdrop p hfind
      rw [hstep p hfind]
      exact tornDown_of_admitted hinv.table hdrop hfind (h hdrop p hfind)
    · intro h hdrop p hfind
      by_contra hrefused
      have htorn := h hdrop p hfind
      rw [hstep p hfind] at htorn
      exact not_tornDown_of_refused hfind hrefused htorn
  | tickEnd nowMs persistMs writable => exact Iff.rfl
  | stop writable => exact Iff.rfl

/-- Only a join request joins. -/
theorem joinFrom_of_act {s : RelayServer} {event : Event} {a : SystemAddress} {id info : Int32}
    (h : act s event = .join a id info) : JoinFrom a event := by
  have hwhy := acted s event
  rw [h] at hwhy
  cases hwhy with
  | packet peer accepted dispatched =>
    cases dispatched with
    | join unknown kind room => exact ⟨rfl, kind⟩

theorem address_mem_members {players : List Player} {a : SystemAddress} :
    a ∈ (members players).map Lobby.Member.addr ↔ ∃ p ∈ players, p.address = a := by
  simp [members, Player.member]

/-- With every lost connection admitted, each record stays connected. -/
theorem connected_step {config : Config} {s : RelayServer} {events : List Event}
    (hinv : ServerInv config s) (h : ∀ p ∈ s.players, Connected events p.address) {event : Event}
    (hadmits : DropAdmitted s event) :
    ∀ p ∈ (step s event).1.players, Connected (events ++ [event]) p.address := by
  intro p hp
  have hstep := (stepsLobby_step hinv.table event).step
  rcases hstep.addr_of_mem (address_mem_members.2 ⟨p, hp, rfl⟩) with hold | ⟨id, info, hact⟩
  · rcases address_mem_members.1 hold with ⟨q, hq, haddr⟩
    rcases h q hq with ⟨before, join, after, hsplit, hjoin, hafter⟩
    refine ⟨before, join, after ++ [event], by simp [hsplit], haddr ▸ hjoin, ?_⟩
    intro e he hdrop
    rcases List.mem_append.1 he with he | he
    · exact hafter e he (haddr ▸ hdrop)
    · -- The record would have gone with this event.
      obtain rfl := List.mem_singleton.1 he
      cases e with
      | packet packet tickMs handlerMs =>
        have hfind : findByAddress s.players packet.systemAddress = some q := by
          rw [hdrop.1, ← haddr]
          exact findByAddress_of_mem hinv.table.addrs hq
        have htorn := (dropAdmitted_iff hinv _).1 hadmits hdrop.2 q hfind
        exact htorn.gone p hp haddr.symm
      | tickEnd nowMs persistMs writable => exact hdrop
      | stop writable => exact hdrop
  · exact ⟨events, event, [], rfl, joinFrom_of_act hact, by simp⟩

/-- Where the flood guard admits the loss of every connection, and only there, each loss tears its
player down; a run in which it always does never holds the record of a lost connection. -/
theorem drop_tears_down_iff (config : Config) (nowMs : Int) (restored : Option Vec3)
    (events : List Event) :
    let s₀ := start config nowMs restored
    server.StepsSatisfy (fun s event => DropTearsDown s event ↔ DropAdmitted s event) s₀ events ∧
    (server.StepsSatisfy DropAdmitted s₀ events →
      server.StepsSatisfy DropTearsDown s₀ events ∧
      ∀ p ∈ (server.state s₀ events).players, Connected events p.address) := by
  intro s₀
  have hinv := serverInv_run config nowMs restored
  refine ⟨fun before event _ _ => (dropAdmitted_iff (hinv before) event).symm, ?_⟩
  intro hadmits
  refine ⟨hadmits.mono fun before event => (dropAdmitted_iff (hinv before) event).1, ?_⟩
  have hempty : ∀ p ∈ s₀.players, Connected [] p.address := by simp [s₀, start]
  have hrun := Machine.run_invariant_of (M := server) (C := DropAdmitted)
    (I := fun events s _ => ServerInv config s ∧ ∀ p ∈ s.players, Connected events p.address)
    ⟨hinv [], hempty⟩
    (fun es s _ e hI hC => ⟨hI.1.step e, connected_step hI.1 hI.2 hC⟩) events hadmits
  exact hrun.2

/-! ## A ghost -/

section Flood

def floodAddress : SystemAddress :=
  { ip := 0x0A000001, port := 4000 }

/-- A one-byte packet of the flooding client. -/
def floodPacket (id : UInt8) : Packet :=
  { systemAddress := floodAddress, guid := 1, data := [id], nonempty := by simp }

def floodEvent (id : UInt8) : Event :=
  .packet (floodPacket id) 0 0

/-- A join, then six hundred packets of an unknown kind in the same millisecond. -/
def floodEvents : List Event :=
  floodEvent idConnectionNotification :: List.replicate 600 (floodEvent 200)

/-- One record, with `n` packets counted in the window that started at time 0. -/
def Flooded (n : Nat) (s : RelayServer) : Prop :=
  s.peer = true ∧ ∃ p, s.players = [p] ∧ p.address = floodAddress ∧ p.rateWindowStartMs = 0 ∧
    p.rateWindowCount = n

theorem flooded_step {n : Nat} {s : RelayServer} (h : Flooded n s) :
    Flooded (n + 1) (step s (floodEvent 200)).1 := by
  rcases h with ⟨hpeer, p, hplayers, haddr, hstart, hcount⟩
  have hfind : findByAddress s.players (floodPacket 200).systemAddress = some p := by
    simp [hplayers, findByAddress, haddr, floodPacket]
  have hkind : (floodPacket 200).kind = .unknown := by decide
  have hstate : (step s (floodEvent 200)).1 = (s.bookkeep (floodPacket 200) 0).1 := by
    simp only [step, hpeer, floodEvent, RelayServer.tickPacket, RelayServer.dispatch, hkind,
      Bool.not_true, Bool.false_eq_true, if_false]
    split <;> rfl
  -- At time 0 the window is never rolled.
  have hwindow : ¬ (0 : Int) - p.rateWindowStartMs ≥ 1000 := by simp [hstart]
  have hplayers' : (step s (floodEvent 200)).1.players =
      [(RelayServer.account p 0).1] := by
    rw [hstate, bookkeep_of_find hfind, hplayers]
    simp [updateByAddress, haddr, floodPacket]
  refine ⟨by rw [hstate, bookkeep_of_find hfind]; exact hpeer, _, hplayers', ?_, ?_, ?_⟩
  · simpa using haddr
  · simp only [RelayServer.account, RelayServer.acceptRate, RelayServer.rollRateWindow, hwindow,
      if_false]
    split <;> exact hstart
  · simp only [RelayServer.account, RelayServer.acceptRate, RelayServer.rollRateWindow, hwindow,
      if_false]
    split <;> simp [hcount]

theorem flooded_run (m : Nat) {n : Nat} {s : RelayServer} (h : Flooded n s) :
    Flooded (n + m) (server.state s (List.replicate m (floodEvent 200))) := by
  induction m generalizing n s with
  | zero => exact h
  | succ m ih =>
    have hrest := ih (flooded_step h)
    rw [List.replicate_succ, Machine.state_cons, server_step, Nat.add_succ, ← Nat.succ_add]
    exact hrest

theorem flooded_join (config : Config) (hroom : ¬ (0 : Int32) ≥ config.maxPlayers) :
    Flooded 0 (step (start config 0 none) (floodEvent idConnectionNotification)).1 := by
  have hkind : (floodPacket idConnectionNotification).kind = .connectionNotification := by decide
  have hnone : findByAddress (start config 0 none).players
      (floodPacket idConnectionNotification).systemAddress = none := rfl
  have hroom' : ¬ Int32.ofNat (start config 0 none).players.length ≥
      (start config 0 none).config.maxPlayers := hroom
  have hjoin := handleConnectionNotification_join hnone hroom' 0
  have hstep : step (start config 0 none) (floodEvent idConnectionNotification) =
      (start config 0 none).handleConnectionNotification
        (floodPacket idConnectionNotification) 0 := by
    simp [step, start, floodEvent, RelayServer.tickPacket, RelayServer.bookkeep, findByAddress,
      RelayServer.dispatch, hkind]
  rw [hstep, hjoin]
  exact ⟨rfl, newPlayer _ _ 0, rfl, rfl, rfl, rfl⟩

/-- The client's connection is lost right after the flood, and its record stays. -/
theorem flooded_drop_leaves_ghost :
    let s := server.state (start {} 0 none) floodEvents
    IsDrop (floodPacket 22) ∧
    ∃ p, findByAddress s.players (floodPacket 22).systemAddress = some p ∧
      ¬ TornDown s p (step s (floodEvent 22)) := by
  intro s
  have hflooded : Flooded (0 + 600) s := by
    have hjoined := flooded_join {} (by decide)
    have hrun := flooded_run 600 hjoined
    rw [← server_step, ← Machine.state_cons] at hrun
    exact hrun
  rcases hflooded with ⟨hpeer, p, hplayers, haddr, hstart, hcount⟩
  have hfind : findByAddress s.players (floodPacket 22).systemAddress = some p := by
    simp [hplayers, findByAddress, haddr, floodPacket]
  refine ⟨by decide, p, hfind, ?_⟩
  have hstep : step s (floodEvent 22) = s.tickPacket (floodPacket 22) 0 0 := by
    simp [step, hpeer, floodEvent]
  rw [hstep]
  -- The loss is packet 601 of the second.
  apply not_tornDown_of_refused hfind
  simp [RateAdmits, hstart, hcount, kMaxPacketsPerSecond]

end Flood

end Server
end Crossover
